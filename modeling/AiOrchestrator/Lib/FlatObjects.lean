import AiOrchestrator.Lib.Json

/-!
# Texts of flat objects

The text of an object whose values are texts does not end with the text of another one, except as a whole
(`append_flatText`). Read character by character, such a text leaves every quotation it opens; a reader who begins
inside a quotation takes the insides for outsides, and never ends outside.
-/

namespace Json

/-- The text of an object whose values are texts. -/
def flatText {ν : Type} (numText : ν → String) (props : List (String × String)) : String :=
  text numText (.obj (props.map fun p => (p.1, .str p.2)))

/-- Where a reader of a flat object is behind its opening brace. -/
inductive Reading
  | outside | inside | escaped | failed
deriving DecidableEq

namespace Reading

/-- Reading one character. -/
def next : Reading → Char → Reading
  | .outside, c => if c = '"' then .inside else if c = ':' ∨ c = ',' ∨ c = '\x7d' then .outside else .failed
  | .inside, c => if c = '\\' then .escaped else if c = '"' then .outside else .inside
  | .escaped, _ => .inside
  | .failed, _ => .failed

/-- Reading a text. -/
def read (reading : Reading) (cs : List Char) : Reading := cs.foldl next reading

@[simp] theorem read_nil (reading : Reading) : reading.read [] = reading := rfl

@[simp] theorem read_cons (reading : Reading) (c : Char) (cs : List Char) :
    reading.read (c :: cs) = (reading.next c).read cs := rfl

@[simp] theorem read_append (reading : Reading) (cs ds : List Char) :
    reading.read (cs ++ ds) = (reading.read cs).read ds := List.foldl_append

/-- Outside, a quotation mark begins a quotation. -/
theorem next_quote : outside.next '"' = .inside := rfl

/-- Outside, the other marks are passed. -/
theorem next_mark {c : Char} (hc : c = ':' ∨ c = ',' ∨ c = '\x7d') : outside.next c = .outside := by
  rcases hc with rfl | rfl | rfl <;> rfl

/-- Nothing is read after a failure. -/
@[simp] theorem read_failed (cs : List Char) : failed.read cs = .failed := by
  induction cs with
  | nil => rfl
  | cons c cs ih => exact ih

end Reading

open Reading

/-! ### From the right place -/

/-- A quoted character stays inside the quotation. -/
theorem read_quoteChar (c : Char) : inside.read (quoteChar c) = .inside := by
  unfold quoteChar
  split_ifs with hquote hbackslash _ _ _ _ _ hcontrol
  any_goals rfl
  · have hdigits : ∀ n < 32, inside.read ['\\', 'u', '0', '0', (n / 16).digitChar, (n % 16).digitChar] =
        .inside := by decide
    exact hdigits c.toNat hcontrol
  · rw [read_cons, next, if_neg hbackslash, if_neg hquote]
    rfl

theorem read_flatMap_quoteChar (cs : List Char) : inside.read (cs.flatMap quoteChar) = .inside := by
  induction cs with
  | nil => rfl
  | cons c cs ih => rw [List.flatMap_cons, read_append, read_quoteChar, ih]

theorem read_quote (s : String) : outside.read (quote s).toList = .outside := by
  rw [toList_quote, read_cons, read_append, next_quote, read_flatMap_quoteChar]
  rfl

section Flat

variable {ν : Type} {numText : ν → String}

/-- What is behind the opening brace. -/
def flatRest (numText : ν → String) : List (String × String) → List Char
  | [] => ['\x7d']
  | p :: props => (quote p.1).toList ++ (':' :: ((quote p.2).toList ++
      renderProps numText (props.map fun p => (p.1, .str p.2))))

theorem toList_flatText (props : List (String × String)) :
    (flatText numText props).toList = '\x7b' :: flatRest numText props := by
  rw [flatText, toList_text]
  cases props with
  | nil => rfl
  | cons p props => rfl

theorem read_renderProps (props : List (String × String)) :
    outside.read (renderProps numText (props.map fun p => (p.1, .str p.2))) = .outside := by
  induction props with
  | nil => rfl
  | cons p props ih =>
    rw [List.map_cons, renderProps, read_cons, next_mark (.inr (.inl rfl)), read_append, read_quote,
      read_cons, next_mark (.inl rfl), render, read_append, read_quote, ih]

/-- A flat object is read to its end. -/
theorem read_flatRest (props : List (String × String)) :
    outside.read (flatRest numText props) = .outside := by
  cases props with
  | nil => rfl
  | cons p props =>
    rw [flatRest, read_append, read_quote, read_cons, next_mark (.inl rfl), read_append, read_quote,
      read_renderProps]

/-! ### From a wrong place -/

/-- Inside a quotation or failed. -/
def Astray (reading : Reading) : Prop := reading = .inside ∨ reading = .failed

/-- A quoted character read from outside does not open a quotation. -/
theorem read_quoteChar_outside (c : Char) :
    outside.read (quoteChar c) = .outside ∨ outside.read (quoteChar c) = .failed := by
  unfold quoteChar
  split_ifs with hquote
  case neg =>
    rw [read_cons, next, if_neg hquote]
    split_ifs
    · exact .inl rfl
    · exact .inr rfl
  all_goals exact .inr rfl

theorem read_flatMap_quoteChar_outside (cs : List Char) :
    outside.read (cs.flatMap quoteChar) = .outside ∨ outside.read (cs.flatMap quoteChar) = .failed := by
  induction cs with
  | nil => exact .inl rfl
  | cons c cs ih =>
    rw [List.flatMap_cons, read_append]
    rcases read_quoteChar_outside c with h | h
    · rw [h]
      exact ih
    · rw [h, read_failed]
      exact .inr rfl

/-- **A quotation read from inside** ends inside. -/
theorem Astray.read_quote {reading : Reading} (h : Astray reading) (s : String) :
    Astray (reading.read (quote s).toList) := by
  rcases h with rfl | rfl
  · have hclosed : inside.next '"' = .outside := rfl
    rw [toList_quote, read_cons, read_append, hclosed]
    rcases read_flatMap_quoteChar_outside s.toList with h | h
    · rw [h]
      exact .inl rfl
    · rw [h]
      exact .inr rfl
  · rw [read_failed]
    exact .inr rfl

/-- The characters between quotations change nothing. -/
theorem Astray.next {reading : Reading} (h : Astray reading) {c : Char} (hc : c = ':' ∨ c = ',' ∨ c = '\x7d') :
    Astray (reading.next c) := by
  rcases h with rfl | rfl
  · rcases hc with rfl | rfl | rfl <;> exact .inl rfl
  · exact .inr rfl

theorem Astray.read_renderProps {reading : Reading} (h : Astray reading) (props : List (String × String)) :
    Astray (reading.read (renderProps numText (props.map fun p => (p.1, .str p.2)))) := by
  induction props generalizing reading with
  | nil => exact h.next (.inr (.inr rfl))
  | cons p props ih =>
    rw [List.map_cons, renderProps, read_cons, read_append, read_cons, render, read_append]
    have hcomma := h.next (.inr (.inl rfl))
    have hcolon := (hcomma.read_quote p.1).next (.inl rfl)
    exact ih (hcolon.read_quote p.2)

theorem Astray.read_flatRest {reading : Reading} (h : Astray reading) (props : List (String × String)) :
    Astray (reading.read (flatRest numText props)) := by
  cases props with
  | nil => exact h.next (.inr (.inr rfl))
  | cons p props =>
    rw [flatRest, read_append, read_cons, read_append]
    have hcolon := (h.read_quote p.1).next (.inl rfl)
    exact (hcolon.read_quote p.2).read_renderProps props

/-- A second opening brace leads astray from everywhere. -/
theorem astray_next_brace (reading : Reading) : Astray (reading.next '\x7b') := by
  cases reading with
  | outside => exact .inr rfl
  | inside => exact .inl rfl
  | escaped => exact .inl rfl
  | failed => exact .inr rfl

/-- **No flat object ends with another one.** -/
theorem append_flatText {front : List Char} {props props' : List (String × String)}
    (h : (flatText numText props).toList = front ++ (flatText numText props').toList) : front = [] := by
  rw [toList_flatText, toList_flatText] at h
  cases front with
  | nil => rfl
  | cons c front =>
    rw [List.cons_append] at h
    obtain ⟨-, hrest⟩ := List.cons.inj h
    have hread : outside.read (flatRest numText props) = .outside := read_flatRest props
    have hastray : Astray (((outside.read front).next '\x7b').read (flatRest numText props')) :=
      (astray_next_brace (outside.read front)).read_flatRest props'
    rw [hrest, read_append, read_cons] at hread
    rw [hread] at hastray
    rcases hastray with h | h <;> cases h

/-- Flat objects with one text are the same. -/
theorem flatText_injective (hnum : NumberText numText) : Function.Injective (flatText numText) := by
  intro props props' h
  have htext : render numText (.obj (props.map fun p => (p.1, .str p.2))) =
      render numText (.obj (props'.map fun p => (p.1, .str p.2))) := by
    rw [← toList_text, ← toList_text]
    exact congrArg String.toList h
  have hprops := Json.obj.inj (render_injective hnum htext)
  refine List.map_injective_iff.mpr ?_ hprops
  intro p q hpq
  obtain ⟨hkey, hvalue⟩ := Prod.mk.inj hpq
  exact Prod.ext hkey (Json.str.inj hvalue)

end Flat

end Json
