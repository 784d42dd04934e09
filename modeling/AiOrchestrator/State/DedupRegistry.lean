import AiOrchestrator.Core.Idempotency
import AiOrchestrator.Lib.Dates

/-!
# The dedup registry in use

`InMemoryDedupRegistryPort` (`packages/state/src/idempotency`) and the guard of the git lifecycle
(`packages/execution/src/idempotency/side-effect-dedup-guard.ts`), which work on one registry, and
sequences of calls of the two (`dedupRun`).

An entry is identified by its key. The port also compares the owner of the lease, where the call
names one; the guard cannot name one.

The time to live is any number of milliseconds, but the text of the deadline has whole ones only.
-/

namespace AiOrchestrator

/-! ### Commands -/

structure DedupReserveCommand where
  key : String
  leaseOwner : String
  nowIso : String
  ttlMs : ℚ
deriving DecidableEq

inductive DedupFinalizeStatus
  | succeeded | failed
deriving DecidableEq, Repr

def DedupFinalizeStatus.toStatus : DedupFinalizeStatus → DedupStatus
  | succeeded => .succeeded
  | failed => .failed

/-- What a side effect is finalized with. -/
structure DedupFinalizeCommand where
  key : String
  nowIso : String
  status : DedupFinalizeStatus
  policyDecisionId : Option String
  evidenceId : Option String

/-- `finalizeDedupEntry` with a command. -/
def DedupFinalizeCommand.enter (command : DedupFinalizeCommand)
    (registry : Record DedupRegistryRecord) : Record DedupRegistryRecord :=
  finalizeDedupEntry registry command.key command.nowIso command.status.toStatus
    command.policyDecisionId command.evidenceId

section Registry

variable (dateParse : String → Option Int)

/-- The entry of a key is marked where it has expired. -/
def markExpired (registry : Record DedupRegistryRecord) (key nowIso : String) :
    Record DedupRegistryRecord :=
  match dateParse nowIso with
  | some now =>
    registry.modify key fun current =>
      if current.expired dateParse now then { current with status := .expired, updatedAt := nowIso }
      else current
  | none => registry

/-! ### The port -/

inductive DedupReserveResult
  | reserved (entry : Option DedupRegistryRecord)
  | duplicatePending (entry : DedupRegistryRecord)
  | duplicateSucceeded (entry : DedupRegistryRecord)

inductive DedupFinalizeResult
  | finalized (entry : Option DedupRegistryRecord)
  | missingEntry
  | leaseOwnerMismatch (entry : DedupRegistryRecord)

namespace InMemoryDedupRegistryPort

/-- `reserve`. A call that throws has marked an expired entry. -/
def reserve (registry : Record DedupRegistryRecord) (command : DedupReserveCommand) :
    Except RuntimeError DedupReserveResult × Record DedupRegistryRecord :=
  match reserveDedupEntry dateParse registry command.key command.leaseOwner command.nowIso
      command.ttlMs with
  | .ok (registry, none) => (.ok (.reserved (registry.get? command.key)), registry)
  | .ok (registry, some entry) =>
    if entry.status = .pending then (.ok (.duplicatePending entry), registry)
    else (.ok (.duplicateSucceeded entry), registry)
  | .error error => (.error error, markExpired dateParse registry command.key command.nowIso)

/-- `finalize`. -/
def finalize (registry : Record DedupRegistryRecord) (command : DedupFinalizeCommand)
    (leaseOwner : Option String) : DedupFinalizeResult × Record DedupRegistryRecord :=
  match registry.get? command.key with
  | none => (.missingEntry, registry)
  | some current =>
    if truthy leaseOwner ∧ some current.leaseOwner ≠ leaseOwner then
      (.leaseOwnerMismatch current, registry)
    else (.finalized ((command.enter registry).get? command.key), command.enter registry)

end InMemoryDedupRegistryPort

/-! ### The guard -/

namespace SideEffectDedupGuard

/-- `reserveSideEffect`: the status of the entry that suppresses the side effect, if there is
one. -/
def reserveSideEffect (registry : Record DedupRegistryRecord) (command : DedupReserveCommand) :
    Except RuntimeError (Option DedupStatus) × Record DedupRegistryRecord :=
  match reserveDedupEntry dateParse registry command.key command.leaseOwner command.nowIso
      command.ttlMs with
  | .ok (registry, suppressedBy) => (.ok (suppressedBy.map DedupRegistryRecord.status), registry)
  | .error error => (.error error, markExpired dateParse registry command.key command.nowIso)

/-- `completeSideEffect`. -/
def completeSideEffect (registry : Record DedupRegistryRecord) (command : DedupFinalizeCommand) :
    Record DedupRegistryRecord :=
  command.enter registry

end SideEffectDedupGuard

/-! ### Sequences of calls -/

/-- **A call** of the guard or of the port. A finalization is made on behalf of an owner. -/
inductive DedupCall
  | reserveSideEffect (command : DedupReserveCommand)
  | completeSideEffect (owner : String) (command : DedupFinalizeCommand)
  | reserve (command : DedupReserveCommand)
  | finalize (owner : String) (command : DedupFinalizeCommand) (leaseOwner : Option String)

namespace DedupCall

def nowIso : DedupCall → String
  | reserveSideEffect command | reserve command => command.nowIso
  | completeSideEffect _ command | finalize _ command _ => command.nowIso

/-- The registry after a call, and the reservation that it has made. -/
def apply (registry : Record DedupRegistryRecord) :
    DedupCall → Record DedupRegistryRecord × Option DedupReserveCommand
  | reserveSideEffect command =>
    match SideEffectDedupGuard.reserveSideEffect dateParse registry command with
    | (.ok none, registry) => (registry, some command)
    | (_, registry) => (registry, none)
  | reserve command =>
    match InMemoryDedupRegistryPort.reserve dateParse registry command with
    | (.ok (.reserved _), registry) => (registry, some command)
    | (_, registry) => (registry, none)
  | completeSideEffect _ command =>
    (SideEffectDedupGuard.completeSideEffect registry command, none)
  | finalize _ command leaseOwner =>
    ((InMemoryDedupRegistryPort.finalize registry command leaseOwner).2, none)

/-- The reservation that a call asks for. -/
def reservation? : DedupCall → Option DedupReserveCommand
  | reserveSideEffect command | reserve command => some command
  | completeSideEffect _ _ | finalize _ _ _ => none

/-- The finalization of a call: the owner on whose behalf it is made, which is the one that it names
if it names one, and its command. -/
def finalization? : DedupCall → Option (String × DedupFinalizeCommand)
  | completeSideEffect owner command => some (owner, command)
  | finalize owner command leaseOwner =>
    some (if truthy leaseOwner then leaseOwner.getD owner else owner, command)
  | reserveSideEffect _ | reserve _ => none

/-- Whether a call names the owner of the lease. -/
def namesOwner : DedupCall → Bool
  | finalize _ _ leaseOwner => truthy leaseOwner
  | _ => false

end DedupCall

/-- A call that was made, with the registry before it and the reservation that it has made. -/
structure DedupEvent where
  call : DedupCall
  before : Record DedupRegistryRecord
  reserved : Option DedupReserveCommand

/-- **Calls one after the other**: the registry after them and their events. The calls and the
events are listed newest first. -/
def dedupRun (registry : Record DedupRegistryRecord) :
    List DedupCall → Record DedupRegistryRecord × List DedupEvent
  | [] => (registry, [])
  | call :: earlier =>
    let (before, events) := dedupRun registry earlier
    let (after, reserved) := call.apply dateParse before
    (after, ⟨call, before, reserved⟩ :: events)

/-- Calls whose times do not decrease. -/
def TimedCalls (calls : List DedupCall) : Prop :=
  calls.Pairwise fun later earlier => ∀ now before, dateParse later.nowIso = some now →
    dateParse earlier.nowIso = some before → before ≤ now

/-! ### What is promised -/

/-- The time to live of a reservation is over when another one is made. -/
def DedupReserveCommand.ElapsedAt (command later : DedupReserveCommand) : Prop :=
  ∃ now at', dateParse command.nowIso = some now ∧ dateParse later.nowIso = some at' ∧
    (now + command.ttlMs : ℚ) ≤ at'

/-- The deadline that is written into the entry of a reservation is reached when another one is
made. -/
def DedupReserveCommand.DueAt (command later : DedupReserveCommand) : Prop :=
  ∃ now at', dateParse command.nowIso = some now ∧ dateParse later.nowIso = some at' ∧
    Text.clipTime (now + command.ttlMs) ≤ at'

/-- Another reservation is made at the deadline that is written into the entry, which is earlier
than the end of the time to live: its fraction of a millisecond was cut off. -/
def DedupReserveCommand.CutAt (command later : DedupReserveCommand) : Prop :=
  ∃ now at', dateParse command.nowIso = some now ∧ dateParse later.nowIso = some at' ∧
    at' = Text.clipTime (now + command.ttlMs) ∧ (at' : ℚ) < now + command.ttlMs

/-- The entry of a key is finalized as failed before any other reservation of the key. `events` are
those after the reservation of the entry. -/
def FinalizedFailed (key : String) (events : List DedupEvent) : Prop :=
  ∃ later e earlier, events = later ++ e :: earlier ∧
    (∃ owner command, e.call.finalization? = some (owner, command) ∧ command.key = key ∧
      command.status = .failed) ∧
    ∀ e' ∈ earlier, ∀ command, e'.reserved = some command → command.key ≠ key

/-- **One reservation at a time**: between two reservations of a key the earlier entry was finalized
as failed, or its time to live was over. -/
def ReservedOnce (events : List DedupEvent) : Prop :=
  ∀ later e between e' earlier command command',
    events = later ++ e' :: (between ++ e :: earlier) →
    e.reserved = some command → e'.reserved = some command' → command'.key = command.key →
      FinalizedFailed command.key between ∨ command.ElapsedAt dateParse command'

/-- **No use of a cut-off deadline**: of two reservations of a key the earlier entry was finalized as
failed in between, or the later one does not fall into the fraction of a millisecond by which the
written deadline is early. -/
def CutsUnused (events : List DedupEvent) : Prop :=
  ∀ later e between e' earlier command command',
    events = later ++ e' :: (between ++ e :: earlier) →
    e.reserved = some command → e'.reserved = some command' → command'.key = command.key →
      FinalizedFailed command.key between ∨ ¬ command.CutAt dateParse command'

/-- An owner's reservation of a key has expired and was taken over by another owner, whose
reservation is the newest. -/
def Overtaken (owner key : String) (events : List DedupEvent) : Prop :=
  ∃ later e' between e earlier command command',
    events = later ++ e' :: (between ++ e :: earlier) ∧
    e.reserved = some command ∧ command.key = key ∧ command.leaseOwner = owner ∧
    e'.reserved = some command' ∧ command'.key = key ∧ command'.leaseOwner ≠ owner ∧
    command.ElapsedAt dateParse command' ∧
    ∀ e'' ∈ later, ∀ command'', e''.reserved = some command'' → command''.key ≠ key

/-- **Late finalizations do nothing**: a finalization on behalf of an owner who was overtaken leaves
the entry of the newer owner as it is. -/
def LateHarmless (events : List DedupEvent) : Prop :=
  ∀ later e earlier owner command, events = later ++ e :: earlier →
    e.call.finalization? = some (owner, command) → Overtaken dateParse owner command.key earlier →
      (e.call.apply dateParse e.before).1.get? command.key = e.before.get? command.key

/-- A finalization finds an entry of its key with the status, the time and the ids that it gives. -/
def DedupFinalizeCommand.Idle (command : DedupFinalizeCommand)
    (registry : Record DedupRegistryRecord) : Prop :=
  ∃ current, registry.get? command.key = some current ∧
    current.status = command.status.toStatus ∧ current.updatedAt = command.nowIso ∧
    (truthy command.policyDecisionId = true →
      current.policyDecisionId = command.policyDecisionId) ∧
    (truthy command.evidenceId = true → current.evidenceId = command.evidenceId)

/-! ### Written deadlines -/

section Deadlines

variable {dateParse} {command later : DedupReserveCommand}

/-- Whole milliseconds are not cut off. -/
theorem DedupReserveCommand.not_cutAt {ttl : Int} (h : command.ttlMs = ttl) :
    ¬ command.CutAt dateParse later := by
  rintro ⟨now, at', -, -, rfl, hlt⟩
  rw [h, ← Int.cast_add, Text.clipTime_intCast] at hlt
  exact lt_irrefl _ hlt

theorem DedupReserveCommand.CutAt.not_elapsedAt (h : command.CutAt dateParse later) :
    ¬ command.ElapsedAt dateParse later := by
  rintro ⟨now, at', hnow, hat, hle⟩
  obtain ⟨now', at'', hnow', hat', -, hlt⟩ := h
  obtain rfl := Option.some.inj (hnow.symm.trans hnow')
  obtain rfl := Option.some.inj (hat.symm.trans hat')
  exact absurd hle (not_le_of_gt hlt)

/-- At the written deadline the time to live is over, but for the fraction that was cut off. -/
theorem DedupReserveCommand.DueAt.elapsedAt (h : command.DueAt dateParse later)
    (hcut : ¬ command.CutAt dateParse later) : command.ElapsedAt dateParse later := by
  obtain ⟨now, at', hnow, hat, hle⟩ := h
  refine ⟨now, at', hnow, hat, ?_⟩
  rcases hle.eq_or_lt with heq | hlt
  · exact not_lt.mp fun hearly => hcut ⟨now, at', hnow, hat, heq.symm, hearly⟩
  · calc (now + command.ttlMs : ℚ)
        ≤ Text.clipTime (now + command.ttlMs) + 1 := (Text.lt_clipTime_add_one _).le
      _ ≤ at' := by exact_mod_cast Int.add_one_le_iff.mpr hlt

end Deadlines

/-! ### One call -/

/-- The entry that a finalization leaves. -/
def DedupFinalizeCommand.entry (command : DedupFinalizeCommand) (current : DedupRegistryRecord) :
    DedupRegistryRecord :=
  { current with
    status := command.status.toStatus
    updatedAt := command.nowIso
    policyDecisionId :=
      if truthy command.policyDecisionId then command.policyDecisionId
      else current.policyDecisionId
    evidenceId := if truthy command.evidenceId then command.evidenceId else current.evidenceId }

theorem DedupFinalizeCommand.get?_enter (command : DedupFinalizeCommand)
    (registry : Record DedupRegistryRecord) (key : String) :
    (command.enter registry).get? key =
      if key = command.key then (registry.get? key).map command.entry else registry.get? key :=
  Dict.get?_modify registry command.key key _

/-- What a call that reserves nothing for a key does to its entry. -/
inductive EntryStep (call : DedupCall) (key : String) (registry after : Record DedupRegistryRecord) :
    Prop
  | kept (h : after.get? key = registry.get? key)
  | marked (current : DedupRegistryRecord) (hcurrent : registry.get? key = some current)
      (now : Int) (hnow : dateParse call.nowIso = some now)
      (hexpired : current.expired dateParse now = true)
      (h : after.get? key =
        some { current with status := .expired, updatedAt := call.nowIso })
  | finalized (owner : String) (command : DedupFinalizeCommand)
      (hcall : call.finalization? = some (owner, command)) (hkey : command.key = key)
      (h : after.get? key = (registry.get? key).map command.entry)

section Call

variable {dateParse} {registry : Record DedupRegistryRecord} {key : String}

theorem entryStep_markExpired {call : DedupCall} (key' : String) :
    EntryStep dateParse call key registry (markExpired dateParse registry key' call.nowIso) := by
  unfold markExpired
  cases hnow : dateParse call.nowIso with
  | none => exact .kept rfl
  | some now =>
    by_cases hkey : key = key'
    · subst hkey
      cases hget : registry.get? key with
      | none => exact .kept (by simp [hget])
      | some current =>
        cases hexpired : current.expired dateParse now with
        | false => exact .kept (by simp [hget, hexpired])
        | true => exact .marked current hget now hnow hexpired (by simp [hget, hexpired])
    · exact .kept (Dict.get?_modify_of_ne hkey registry _)

theorem entryStep_enter {call : DedupCall} {owner : String} {command : DedupFinalizeCommand}
    (hcall : call.finalization? = some (owner, command)) :
    EntryStep dateParse call key registry (command.enter registry) := by
  by_cases hkey : key = command.key
  · exact .finalized owner command hcall hkey.symm
      (by rw [command.get?_enter, if_pos hkey])
  · exact .kept (by rw [command.get?_enter, if_neg hkey])

/-- A reservation by the program that both parties use: it is made, with a new entry, or reserves
nothing. -/
theorem reserve_step {call : DedupCall} {command : DedupReserveCommand}
    (hiso : call.nowIso = command.nowIso)
    (happly : call.apply dateParse registry =
      match reserveDedupEntry dateParse registry command.key command.leaseOwner command.nowIso
          command.ttlMs with
      | .ok (registry, none) => (registry, some command)
      | .ok (registry, some _) => (registry, none)
      | .error _ => (markExpired dateParse registry command.key command.nowIso, none)) :
    (∃ now expiresAt, dateParse command.nowIso = some now ∧
      dedupFree dateParse registry command.key now = true ∧
      Text.isoString? (now + command.ttlMs) = some expiresAt ∧
      call.apply dateParse registry = (registry.set command.key
        (pendingEntry command.key command.leaseOwner command.nowIso expiresAt), some command)) ∨
    (call.apply dateParse registry).2 = none ∧
      EntryStep dateParse call key registry (call.apply dateParse registry).1 := by
  rw [happly]
  rcases hreserve : reserveDedupEntry dateParse registry command.key command.leaseOwner command.nowIso
      command.ttlMs with error | ⟨reserved, suppressedBy⟩
  · refine Or.inr ⟨rfl, ?_⟩
    rw [← hiso]
    exact entryStep_markExpired command.key
  rcases reserveDedupEntry_ok hreserve with ⟨current, -, rfl, rfl⟩ |
    ⟨now, expiresAt, hnow, hfree, hexpires, rfl, rfl⟩
  · exact Or.inr ⟨rfl, .kept rfl⟩
  · exact Or.inl ⟨now, expiresAt, hnow, hfree, hexpires, rfl⟩

/-- The port refuses a finalization or enters it. -/
theorem finalize_registry (registry : Record DedupRegistryRecord) (command : DedupFinalizeCommand)
    (leaseOwner : Option String) :
    (InMemoryDedupRegistryPort.finalize registry command leaseOwner).2 = registry ∨
      (InMemoryDedupRegistryPort.finalize registry command leaseOwner).2 =
        command.enter registry := by
  unfold InMemoryDedupRegistryPort.finalize
  split
  · exact Or.inl rfl
  · split
    · exact Or.inl rfl
    · exact Or.inr rfl

/-- **A call**: it makes a reservation of a free key, or reserves nothing and takes a step on every
entry. -/
theorem apply_step (call : DedupCall) (registry : Record DedupRegistryRecord) (key : String) :
    (∃ command now expiresAt, dateParse command.nowIso = some now ∧
      call.nowIso = command.nowIso ∧ dedupFree dateParse registry command.key now = true ∧
      Text.isoString? (now + command.ttlMs) = some expiresAt ∧
      call.apply dateParse registry = (registry.set command.key
        (pendingEntry command.key command.leaseOwner command.nowIso expiresAt), some command)) ∨
    (call.apply dateParse registry).2 = none ∧
      EntryStep dateParse call key registry (call.apply dateParse registry).1 := by
  cases call with
  | reserveSideEffect command =>
    refine (@reserve_step dateParse registry key (.reserveSideEffect command) command rfl ?_).imp_left ?_
    · simp only [DedupCall.apply, SideEffectDedupGuard.reserveSideEffect]
      rcases reserveDedupEntry dateParse registry command.key command.leaseOwner command.nowIso
        command.ttlMs with error | ⟨reserved, suppressedBy⟩
      · rfl
      · cases suppressedBy <;> rfl
    · rintro ⟨now, expiresAt, hnow, hfree, hexpires, happly⟩
      exact ⟨command, now, expiresAt, hnow, rfl, hfree, hexpires, happly⟩
  | reserve command =>
    refine (@reserve_step dateParse registry key (.reserve command) command rfl ?_).imp_left ?_
    · simp only [DedupCall.apply, InMemoryDedupRegistryPort.reserve]
      rcases reserveDedupEntry dateParse registry command.key command.leaseOwner command.nowIso
        command.ttlMs with error | ⟨reserved, suppressedBy⟩
      · rfl
      · cases suppressedBy with
        | none => rfl
        | some entry =>
          by_cases hpending : entry.status = .pending
          · simp only [if_pos hpending]
          · simp only [if_neg hpending]
    · rintro ⟨now, expiresAt, hnow, hfree, hexpires, happly⟩
      exact ⟨command, now, expiresAt, hnow, rfl, hfree, hexpires, happly⟩
  | completeSideEffect owner command => exact Or.inr ⟨rfl, entryStep_enter rfl⟩
  | finalize owner command leaseOwner =>
    refine Or.inr ⟨rfl, ?_⟩
    show EntryStep dateParse _ key registry
      (InMemoryDedupRegistryPort.finalize registry command leaseOwner).2
    rcases finalize_registry registry command leaseOwner with heq | heq
    · rw [heq]
      exact .kept rfl
    · rw [heq]
      exact entryStep_enter rfl

/-- A reservation that is made is the one that the call asks for. -/
theorem reservation_of_apply {call : DedupCall} {command : DedupReserveCommand}
    (h : (call.apply dateParse registry).2 = some command) : call.reservation? = some command := by
  cases call with
  | reserveSideEffect asked =>
    unfold DedupCall.apply at h
    dsimp only at h
    split at h
    · exact h
    · cases h
  | reserve asked =>
    unfold DedupCall.apply at h
    dsimp only at h
    split at h
    · exact h
    · cases h
  | completeSideEffect owner finalizing => cases h
  | finalize owner finalizing leaseOwner => cases h

end Call

/-! ### Sequences -/

section Runs

variable {dateParse} {start : Record DedupRegistryRecord} {calls : List DedupCall}

theorem dedupRun_cons (call : DedupCall) (earlier : List DedupCall) :
    dedupRun dateParse start (call :: earlier) =
      ((call.apply dateParse (dedupRun dateParse start earlier).1).1,
        ⟨call, (dedupRun dateParse start earlier).1,
          (call.apply dateParse (dedupRun dateParse start earlier).1).2⟩ ::
          (dedupRun dateParse start earlier).2) := rfl

/-- An event of a sequence is that of a call after the earlier ones. -/
theorem dedupRun_split {later earlier : List DedupEvent} {e : DedupEvent}
    (h : (dedupRun dateParse start calls).2 = later ++ e :: earlier) :
    ∃ callsLater callsEarlier, calls = callsLater ++ e.call :: callsEarlier ∧
      dedupRun dateParse start callsEarlier = (e.before, earlier) ∧
      e.reserved = (e.call.apply dateParse e.before).2 := by
  induction calls generalizing later with
  | nil => exact absurd h.symm (List.append_ne_nil_of_right_ne_nil later (List.cons_ne_nil e earlier))
  | cons call calls ih =>
    rw [dedupRun_cons] at h
    cases later with
    | nil =>
      obtain ⟨rfl, rfl⟩ := List.cons.inj h
      exact ⟨[], calls, rfl, rfl, rfl⟩
    | cons newest later =>
      obtain ⟨callsLater, callsEarlier, rfl, hrun, hreserved⟩ := ih (List.cons.inj h).2
      exact ⟨call :: callsLater, callsEarlier, rfl, hrun, hreserved⟩

/-- With times to live of whole milliseconds no deadline is cut off. -/
theorem cutsUnused_of_whole (h : ∀ call ∈ calls, ∀ command, call.reservation? = some command →
    ∃ ttl : Int, command.ttlMs = ttl) : CutsUnused dateParse (dedupRun dateParse start calls).2 := by
  intro later e between e' earlier command command' hsplit he _ _
  have hsplit' : (dedupRun dateParse start calls).2 = (later ++ e' :: between) ++ e :: earlier := by
    rw [hsplit, List.append_assoc, List.cons_append]
  obtain ⟨callsLater, callsEarlier, rfl, -, hreserved⟩ := dedupRun_split hsplit'
  have hcall := reservation_of_apply (hreserved.symm.trans he)
  obtain ⟨ttl, httl⟩ := h e.call (List.mem_append_right _ List.mem_cons_self) command hcall
  exact Or.inr (DedupReserveCommand.not_cutAt httl)

variable (dateParse) in
/-- A time at which a call of these events was made. -/
def CalledAt (events : List DedupEvent) (now : Int) : Prop :=
  ∃ e ∈ events, dateParse e.call.nowIso = some now

/-- No reservation of a key. -/
def Unreserved (key : String) (events : List DedupEvent) : Prop :=
  ∀ e ∈ events, ∀ command, e.reserved = some command → command.key ≠ key

theorem FinalizedFailed.append {key : String} {events : List DedupEvent}
    (h : FinalizedFailed key events) (later : List DedupEvent) :
    FinalizedFailed key (later ++ events) := by
  obtain ⟨later', e, earlier, rfl, hcall, hfirst⟩ := h
  exact ⟨later ++ later', e, earlier, (List.append_assoc _ _ _).symm, hcall, hfirst⟩

variable (dateParse) in
/-- **The entry of a reservation**, as the calls after it leave it: it has the owner and the expiry
of the reservation, and suppresses others until it has failed or expired. -/
structure Holds (command : DedupReserveCommand) (later : List DedupEvent)
    (registry : Record DedupRegistryRecord) (current : DedupRegistryRecord) (expires : Int) :
    Prop where
  entry : registry.get? command.key = some current
  owner : current.leaseOwner = command.leaseOwner
  expiry : dateParse current.expiresAt = some expires
  status : current.status = .pending ∨ current.status = .succeeded ∨
    FinalizedFailed command.key later ∨ ∃ now, CalledAt dateParse later now ∧ expires ≤ now

theorem expired_iff {current : DedupRegistryRecord} {expires now : Int}
    (h : dateParse current.expiresAt = some expires) :
    current.expired dateParse now = true ↔ expires ≤ now := by
  simp only [DedupRegistryRecord.expired, h, decide_eq_true_eq]

/-- A call that reserves nothing for the key keeps that. -/
theorem Holds.step {command : DedupReserveCommand} {later : List DedupEvent}
    {registry : Record DedupRegistryRecord} {current : DedupRegistryRecord} {expires : Int}
    (h : Holds dateParse command later registry current expires) (hlater : Unreserved command.key later)
    (call : DedupCall)
    (hother : ∀ command', (call.apply dateParse registry).2 = some command' → command'.key ≠ command.key) :
    ∃ current', Holds dateParse command (⟨call, registry, (call.apply dateParse registry).2⟩ :: later)
      (call.apply dateParse registry).1 current' expires := by
  have hstatus : ∀ e, current.status = .pending ∨ current.status = .succeeded ∨
      FinalizedFailed command.key later ∨ (∃ now, CalledAt dateParse later now ∧ expires ≤ now) →
      current.status = .pending ∨ current.status = .succeeded ∨
        FinalizedFailed command.key (e :: later) ∨
          ∃ now, CalledAt dateParse (e :: later) now ∧ expires ≤ now := by
    rintro e (hpending | hsucceeded | hfailed | ⟨now, ⟨e', he', hnow⟩, hle⟩)
    · exact Or.inl hpending
    · exact Or.inr (Or.inl hsucceeded)
    · exact Or.inr (Or.inr (Or.inl (hfailed.append [e])))
    · exact Or.inr (Or.inr (Or.inr ⟨now, ⟨e', List.mem_cons_of_mem e he', hnow⟩, hle⟩))
  -- What was said of the events before this one stays true with it.
  rcases apply_step call registry command.key with
    ⟨command', now, expiresAt, -, -, -, -, happly⟩ | ⟨-, hstep⟩
  · -- a reservation of another key
    have hkey : command.key ≠ command'.key := by
      refine (hother command' ?_).symm
      rw [happly]
    refine ⟨current, ?_, h.owner, h.expiry, hstatus _ h.status⟩
    rw [happly]
    exact (Dict.get?_set_of_ne hkey registry _).trans h.entry
  -- The other steps on the key: nothing, the mark of an expired entry, or a finalization, each of
  -- which keeps the owner and the expiry.
  · cases hstep with
    | kept hkept => exact ⟨current, hkept.trans h.entry, h.owner, h.expiry, hstatus _ h.status⟩
    | marked current' hcurrent now hnow hexpired hmarked =>
      obtain rfl := Option.some.inj (hcurrent.symm.trans h.entry)
      refine ⟨_, hmarked, h.owner, h.expiry, Or.inr (Or.inr (Or.inr ⟨now, ?_, ?_⟩))⟩
      · exact ⟨_, List.mem_cons_self, hnow⟩
      · exact (expired_iff h.expiry).mp hexpired
    | finalized owner finalizing hcall hkey hfinalized =>
      rw [h.entry] at hfinalized
      refine ⟨_, hfinalized, h.owner, h.expiry, ?_⟩
      cases hresult : finalizing.status with
      | succeeded => exact Or.inr (Or.inl (by rw [DedupFinalizeCommand.entry, hresult]; rfl))
      | failed =>
        refine Or.inr (Or.inr (Or.inl ⟨[], _, later, rfl, ⟨owner, finalizing, hcall, hkey, hresult⟩, ?_⟩))
        exact hlater

theorem exists_first_reservation {key : String} (events : List DedupEvent) :
    Unreserved key events ∨ ∃ later e earlier command, events = later ++ e :: earlier ∧
      e.reserved = some command ∧ command.key = key ∧ Unreserved key earlier := by
  induction events with
  | nil => exact Or.inl fun e he => absurd he List.not_mem_nil
  | cons newest events ih =>
    rcases ih with hnone | ⟨later, e, earlier, command, rfl, he, hkey, hfirst⟩
    · by_cases h : ∃ command, newest.reserved = some command ∧ command.key = key
      · obtain ⟨command, he, hkey⟩ := h
        exact Or.inr ⟨[], newest, events, command, rfl, he, hkey, hnone⟩
      · refine Or.inl (List.forall_mem_cons.mpr ⟨fun command he hkey => ?_, hnone⟩)
        exact h ⟨command, he, hkey⟩
    · exact Or.inr ⟨newest :: later, e, earlier, command, rfl, he, hkey, hfirst⟩

/-- Calls of a sequence are made at times in their order. -/
theorem calledAt_le (h : TimedCalls dateParse calls) {later earlier : List DedupEvent} {e : DedupEvent}
    (hsplit : (dedupRun dateParse start calls).2 = later ++ e :: earlier) {now before : Int}
    (hnow : dateParse e.call.nowIso = some now) (hbefore : CalledAt dateParse earlier before) :
    before ≤ now := by
  obtain ⟨e', he', hbefore⟩ := hbefore
  obtain ⟨callsLater, callsEarlier, rfl, hrun, -⟩ := dedupRun_split hsplit
  obtain ⟨later', earlier', rfl⟩ := List.append_of_mem he'
  have hsplit' : (dedupRun dateParse start callsEarlier).2 = later' ++ e' :: earlier' := by rw [hrun]
  obtain ⟨callsLater', callsEarlier', rfl, -, -⟩ := dedupRun_split hsplit'
  have hordered := (List.pairwise_append.mp h).2.1
  refine (List.pairwise_cons.mp hordered).1 e'.call ?_ now before hnow hbefore
  exact List.mem_append_right callsLater' List.mem_cons_self

/-- A reservation is made at the time of its call. -/
theorem time_of_reserved {later earlier : List DedupEvent} {e : DedupEvent}
    {command : DedupReserveCommand} (hsplit : (dedupRun dateParse start calls).2 = later ++ e :: earlier)
    (he : e.reserved = some command) :
    ∃ now, dateParse command.nowIso = some now ∧ dateParse e.call.nowIso = some now := by
  obtain ⟨callsLater, callsEarlier, -, -, hreserved⟩ := dedupRun_split hsplit
  rcases apply_step e.call e.before command.key with
    ⟨command', now, expiresAt, hnow, hiso, -, -, happly⟩ | ⟨hnone, -⟩
  · rw [happly, he] at hreserved
    obtain rfl := Option.some.inj hreserved
    exact ⟨now, hnow, hiso ▸ hnow⟩
  · cases he.symm.trans (hreserved.trans hnone)

/-! The texts of deadlines are those of `toISOString`, which the platform reads. -/

variable (hparse : Text.ReadsIsoStrings dateParse)

include hparse

/-- **The newest reservation of a key** has its entry in the registry. -/
theorem exists_holds {later earlier : List DedupEvent} {e : DedupEvent}
    {command : DedupReserveCommand}
    (hsplit : (dedupRun dateParse start calls).2 = later ++ e :: earlier) (he : e.reserved = some command)
    (hlater : Unreserved command.key later) :
    ∃ now current, dateParse command.nowIso = some now ∧
      Holds dateParse command later (dedupRun dateParse start calls).1 current
        (Text.clipTime (now + command.ttlMs)) := by
  induction calls generalizing later with
  | nil =>
    exact absurd hsplit.symm
      (List.append_ne_nil_of_right_ne_nil later (List.cons_ne_nil e earlier))
  | cons call calls ih =>
    rw [dedupRun_cons] at hsplit ⊢
    cases later with
    | nil =>
      obtain ⟨rfl, rfl⟩ := List.cons.inj hsplit
      rcases apply_step call (dedupRun dateParse start calls).1 command.key with
        ⟨command', now, expiresAt, hnow, -, -, hexpires, happly⟩ | ⟨hnone, -⟩
      · obtain rfl : command' = command := by
          rw [happly] at he
          exact Option.some.inj he
        refine ⟨now, pendingEntry command'.key command'.leaseOwner command'.nowIso expiresAt, hnow,
          ?_, rfl, hparse.isoString hexpires, Or.inl rfl⟩
        rw [happly]
        exact Dict.get?_set_self _ _ _
      · cases hnone.symm.trans he
    | cons newest later =>
      obtain ⟨rfl, htail⟩ := List.cons.inj hsplit
      have hrest : Unreserved command.key later := fun e' he' =>
        hlater e' (List.mem_cons_of_mem _ he')
      obtain ⟨now, current, hnow, hholds⟩ := ih htail hrest
      obtain ⟨current', hholds'⟩ := hholds.step hrest call fun command' hcommand' =>
        hlater _ List.mem_cons_self command' hcommand'
      exact ⟨now, current', hnow, hholds'⟩

/-- Two reservations of a key with none between them. -/
theorem reserved_next (h : TimedCalls dateParse calls) {later between earlier : List DedupEvent}
    {e e' : DedupEvent} {command command' : DedupReserveCommand}
    (hsplit : (dedupRun dateParse start calls).2 = later ++ e' :: (between ++ e :: earlier))
    (he : e.reserved = some command) (he' : e'.reserved = some command')
    (hkey : command'.key = command.key) (hnone : Unreserved command.key between) :
    FinalizedFailed command.key between ∨ command.DueAt dateParse command' := by
  obtain ⟨callsLater, callsEarlier, -, hrun, hreserved⟩ := dedupRun_split hsplit
  have hevents : (dedupRun dateParse start callsEarlier).2 = between ++ e :: earlier := by rw [hrun]
  obtain ⟨now, current, hnow, hholds⟩ := exists_holds hparse hevents he hnone
  rw [hrun] at hholds
  rcases apply_step e'.call e'.before command.key with
    ⟨command'', at', expiresAt, hat, hiso, hfree, -, happly⟩ | ⟨hnoReservation, -⟩
  · obtain rfl : command'' = command' := by
      rw [happly, he'] at hreserved
      exact (Option.some.inj hreserved).symm
    -- the key was free, so its entry had failed or expired
    have hfree' : current.expired dateParse at' = true ∨
        ¬ (current.status = .pending ∨ current.status = .succeeded) := by
      simp only [dedupFree, hkey, hholds.entry] at hfree
      simpa using hfree
    have hdue : Text.clipTime (now + command.ttlMs) ≤ at' → command.DueAt dateParse command'' :=
      fun hle => ⟨now, at', hnow, hat, hle⟩
    rcases hfree' with hexpired | hstatus
    · exact Or.inr (hdue ((expired_iff hholds.expiry).mp hexpired))
    · rcases hholds.status with hpending | hsucceeded | hfailed | ⟨before, hcalled, hle⟩
      · exact absurd (Or.inl hpending) hstatus
      · exact absurd (Or.inr hsucceeded) hstatus
      · exact Or.inl hfailed
      · obtain ⟨e'', he'', hbefore⟩ := hcalled
        have hcall : dateParse e'.call.nowIso = some at' := by rw [hiso, hat]
        have horder := calledAt_le h hsplit hcall
          ⟨e'', List.mem_append_left (e :: earlier) he'', hbefore⟩
        exact Or.inr (hdue (le_trans hle horder))
  · rw [hnoReservation, he'] at hreserved
    cases hreserved

/-- **One reservation until the written deadline.** -/
theorem reserved_due (h : TimedCalls dateParse calls) {later between earlier : List DedupEvent}
    {e e' : DedupEvent} {command command' : DedupReserveCommand}
    (hsplit : (dedupRun dateParse start calls).2 = later ++ e' :: (between ++ e :: earlier))
    (he : e.reserved = some command) (he' : e'.reserved = some command')
    (hkey : command'.key = command.key) :
    FinalizedFailed command.key between ∨ command.DueAt dateParse command' := by
  rcases @exists_first_reservation command.key between with
    hnone | ⟨between', next, first, command'', rfl, hnext, hkey', hfirst⟩
  · exact reserved_next hparse h hsplit he he' hkey hnone
  -- the reservation after the first one decides
  have hsplit' : (dedupRun dateParse start calls).2 =
      (later ++ e' :: between') ++ next :: (first ++ e :: earlier) := by
    rw [hsplit]
    simp only [List.append_assoc, List.cons_append]
  rcases reserved_next hparse h hsplit' he hnext hkey' hfirst with
    hfailed | ⟨now, middle, hnow, hmiddle, hle⟩
  · refine Or.inl ?_
    rw [List.append_cons]
    exact hfailed.append (between' ++ [next])
  · obtain ⟨at', hat, hcalled⟩ := time_of_reserved hsplit he'
    obtain ⟨middle', hmiddle', hcalled'⟩ := time_of_reserved hsplit' hnext
    obtain rfl := Option.some.inj (hmiddle.symm.trans hmiddle')
    have horder := calledAt_le h hsplit hcalled
      ⟨next, List.mem_append_left _ (List.mem_append_right between' List.mem_cons_self), hcalled'⟩
    exact Or.inr ⟨now, at', hnow, hat, le_trans hle horder⟩

/-- **One reservation at a time**, exactly where no cut-off deadline is used. -/
theorem reservedOnce_iff (h : TimedCalls dateParse calls) :
    ReservedOnce dateParse (dedupRun dateParse start calls).2 ↔
      CutsUnused dateParse (dedupRun dateParse start calls).2 := by
  constructor
  · intro honce later e between e' earlier command command' hsplit he he' hkey
    refine (honce later e between e' earlier command command' hsplit he he' hkey).imp_right ?_
    exact fun helapsed hcut => hcut.not_elapsedAt helapsed
  · intro hcuts later e between e' earlier command command' hsplit he he' hkey
    rcases hcuts later e between e' earlier command command' hsplit he he' hkey with hfailed | hcut
    · exact Or.inl hfailed
    · refine (reserved_due hparse h hsplit he he' hkey).imp_right ?_
      exact fun hdue => hdue.elapsedAt hcut

/-- After an owner was overtaken the entry is another owner's. -/
theorem Overtaken.entry {owner key : String}
    (h : Overtaken dateParse owner key (dedupRun dateParse start calls).2) :
    ∃ current, (dedupRun dateParse start calls).1.get? key = some current ∧ current.leaseOwner ≠ owner := by
  obtain ⟨later, e', between, e, earlier, command, command', hsplit, -, -, -, he', rfl, hother, -,
    hnewest⟩ := h
  obtain ⟨now, current, -, hholds⟩ := exists_holds hparse hsplit he' hnewest
  refine ⟨current, hholds.entry, ?_⟩
  rw [hholds.owner]
  exact hother

omit hparse

/-! ### Late finalizations -/

theorem DedupFinalizeCommand.idle_iff {command : DedupFinalizeCommand}
    {registry : Record DedupRegistryRecord} {current : DedupRegistryRecord}
    (h : registry.get? command.key = some current) :
    command.Idle registry ↔
      (command.enter registry).get? command.key = registry.get? command.key := by
  rw [command.get?_enter, if_pos rfl, h, Option.map_some, Option.some.injEq]
  constructor
  · rintro ⟨current', hcurrent, hstatus, hupdated, hdecision, hevidence⟩
    obtain rfl := Option.some.inj (hcurrent.symm.trans h)
    have hdecision' : (if truthy command.policyDecisionId then command.policyDecisionId
        else current'.policyDecisionId) = current'.policyDecisionId := by
      split
      · next htruthy => exact (hdecision htruthy).symm
      · rfl
    have hevidence' : (if truthy command.evidenceId then command.evidenceId
        else current'.evidenceId) = current'.evidenceId := by
      split
      · next htruthy => exact (hevidence htruthy).symm
      · rfl
    rw [DedupFinalizeCommand.entry, hdecision', hevidence', ← hstatus, ← hupdated]
  · intro hentry
    refine ⟨current, h, ?_, ?_, fun htruthy => ?_, fun htruthy => ?_⟩
    · exact (congrArg DedupRegistryRecord.status hentry).symm
    · exact (congrArg DedupRegistryRecord.updatedAt hentry).symm
    · have hdecision := congrArg DedupRegistryRecord.policyDecisionId hentry
      simp only [DedupFinalizeCommand.entry, htruthy, if_true] at hdecision
      exact hdecision.symm
    · have hevidence := congrArg DedupRegistryRecord.evidenceId hentry
      simp only [DedupFinalizeCommand.entry, htruthy, if_true] at hevidence
      exact hevidence.symm

/-- **A finalization of another owner's entry** leaves it exactly where it names its owner to the
port or finds the entry as it would leave it. -/
theorem late_iff {call : DedupCall} {owner : String} {command : DedupFinalizeCommand}
    (hcall : call.finalization? = some (owner, command)) {registry : Record DedupRegistryRecord}
    {current : DedupRegistryRecord} (hcurrent : registry.get? command.key = some current)
    (hother : current.leaseOwner ≠ owner) :
    (call.apply dateParse registry).1.get? command.key = registry.get? command.key ↔
      call.namesOwner = true ∨ command.Idle registry := by
  cases call with
  | reserveSideEffect command => cases hcall
  | reserve command => cases hcall
  -- The guard asks for no owner, so that only an idle finalization leaves the entry.
  | completeSideEffect owner' command' =>
    obtain ⟨-, rfl⟩ := Prod.mk.inj (Option.some.inj hcall)
    refine (DedupFinalizeCommand.idle_iff hcurrent).symm.trans ?_
    exact (or_iff_right Bool.false_ne_true).symm
  | finalize owner' command' leaseOwner =>
    obtain ⟨howner, rfl⟩ := Prod.mk.inj (Option.some.inj hcall)
    show (InMemoryDedupRegistryPort.finalize registry command' leaseOwner).2.get? command'.key = _ ↔
      truthy leaseOwner = true ∨ _
    cases htruthy : truthy leaseOwner with
    | true =>
      -- the port refuses, as the entry is not that owner's
      have hmismatch : some current.leaseOwner ≠ leaseOwner := by
        rw [htruthy, if_pos rfl] at howner
        intro heq
        rw [← heq] at howner
        exact hother howner
      have hrefused : (InMemoryDedupRegistryPort.finalize registry command' leaseOwner).2 =
          registry := by
        rw [InMemoryDedupRegistryPort.finalize, hcurrent]
        dsimp only
        rw [if_pos ⟨htruthy, hmismatch⟩]
      rw [hrefused]
      exact iff_of_true rfl (Or.inl rfl)
    | false =>
      have hentered : (InMemoryDedupRegistryPort.finalize registry command' leaseOwner).2 =
          command'.enter registry := by
        rw [InMemoryDedupRegistryPort.finalize, hcurrent]
        dsimp only
        rw [if_neg (fun h => Bool.false_ne_true (htruthy.symm.trans h.1))]
      rw [hentered]
      refine (DedupFinalizeCommand.idle_iff hcurrent).symm.trans ?_
      exact (or_iff_right Bool.false_ne_true).symm

end Runs

end Registry

end AiOrchestrator
