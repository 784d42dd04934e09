import AiOrchestrator.Locks.Scopes
import AiOrchestrator.Core.Validation

/-!
# Locks of different tenants

A run holds its lock under the organisation and the project of the state, of which
`validateProjectState` asks only that the organisation is not empty. `lockIsolated_iff` says for which
states and resources the name of a lock is the name of no other one.
-/

namespace AiOrchestrator

/-- The scope in which the runs of a state take their locks. -/
def ProjectState.leaseScope (state : ProjectState) : ExecutionLeaseScope where
  tenantId := state.orgId
  projectId := state.projectId

/-- **Isolation**: the lock of a state is not the lock of another accepted state's organisation and
project, nor of another resource. -/
def LockIsolated (state : ProjectState) (resource : String) : Prop :=
  ∀ (state' : ProjectState) (resource' : String), validateProjectState state' = [] →
    (state.leaseScope, resource) ≠ (state'.leaseScope, resource') →
      formatScopedLeaseResource resource (some state.leaseScope) ≠
          formatScopedLeaseResource resource' (some state'.leaseScope) ∧
        formatScopedRunLockKey resource (some state.leaseScope) ≠
          formatScopedRunLockKey resource' (some state'.leaseScope)

theorem lockIsolated_iff_scoped {state : ProjectState} {resource : String} :
    LockIsolated state resource ↔
      ∀ (scope : ExecutionLeaseScope) (resource' : String), scope.tenantId ≠ "" →
        scopedResource resource (some state.leaseScope) = scopedResource resource' (some scope) →
          state.leaseScope = scope ∧ resource = resource' := by
  constructor
  · intro h scope resource' hscope heq
    by_contra hne
    have hvalid := createEmpty_valid (fun hnone => hscope (Option.some.inj hnone))
      scope.projectId "" ""
    have hother := h (ProjectState.createEmpty (some scope.tenantId) scope.projectId "" "") resource'
      (validateProjectState_eq_nil_iff.mpr hvalid) (fun hsame => hne (Prod.mk.inj hsame))
    exact hother.1 heq
  · intro h state' resource' hvalid hne
    have horg := (validateProjectState_eq_nil_iff.mp hvalid).schema.org
    have hscoped : scopedResource resource (some state.leaseScope) ≠
        scopedResource resource' (some state'.leaseScope) := by
      intro heq
      obtain ⟨hscope, hresource⟩ := h state'.leaseScope resource' horg heq
      exact hne (by rw [hscope, hresource])
    exact ⟨hscoped, hscoped⟩

/-- **Isolation of locks.** The lock of an accepted state for a resource is the lock of no other
organisation, project or resource exactly if there is no colon in the project and in the resource,
and none in the organisation behind its first character. -/
theorem lockIsolated_iff {state : ProjectState} (hvalid : validateProjectState state = [])
    (resource : String) :
    LockIsolated state resource ↔
      ':' ∉ state.orgId.toList.tail ∧ ':' ∉ state.projectId.toList ∧ ':' ∉ resource.toList := by
  have horg := (validateProjectState_eq_nil_iff.mp hvalid).schema.org
  obtain ⟨c, tenant, htenant⟩ : ∃ c tenant, state.orgId.toList = c :: tenant := by
    refine List.exists_cons_of_ne_nil fun hnil => horg (String.toList_inj.mp ?_)
    rw [hnil]
    rfl
  have hlists : ∀ (scope : ExecutionLeaseScope) (resource' : String),
      scopedResource resource (some state.leaseScope) = scopedResource resource' (some scope) ↔
        state.orgId.toList ++ ':' :: (state.projectId.toList ++ ':' :: resource.toList) =
          scope.tenantId.toList ++ ':' :: (scope.projectId.toList ++ ':' :: resource'.toList) := by
    intro scope resource'
    rw [← String.toList_inj, toList_scopedResource, toList_scopedResource]
    rfl
  rw [lockIsolated_iff_scoped]
  simp only [hlists]
  constructor
  · intro h
    refine ⟨fun hcolon => ?_, fun hcolon => ?_, fun hcolon => ?_⟩
    · -- the organisation ends at the colon, and the project starts there
      obtain ⟨before, after, hsplit⟩ := List.append_of_mem hcolon
      have hsplit' : state.orgId.toList = c :: (before ++ ':' :: after) := by
        rw [htenant] at hsplit ⊢
        exact congrArg (c :: ·) hsplit
      have hother := h ⟨String.ofList (c :: before), String.ofList after⟩
        (state.projectId ++ ":" ++ resource) (by simp) (by simp [hsplit'])
      have hlength := congrArg (fun scope => scope.tenantId.toList.length) hother.1
      simp [ProjectState.leaseScope, hsplit'] at hlength
    · -- the project ends at the colon, and the resource starts there
      obtain ⟨before, after, hsplit⟩ := List.append_of_mem hcolon
      have hother := h ⟨state.orgId, String.ofList before⟩ (String.ofList after ++ ":" ++ resource)
        horg (by simp [hsplit])
      have hlength := congrArg (fun scope => scope.projectId.toList.length) hother.1
      simp [ProjectState.leaseScope, hsplit] at hlength
    · -- the project goes on to the colon
      obtain ⟨before, after, hsplit⟩ := List.append_of_mem hcolon
      have hother := h ⟨state.orgId, state.projectId ++ ":" ++ String.ofList before⟩
        (String.ofList after) horg (by simp [hsplit])
      have hlength := congrArg (fun scope => scope.projectId.toList.length) hother.1
      simp [ProjectState.leaseScope] at hlength
  · rintro ⟨hnotTenant, hnotProject, hnotResource⟩ scope resource' hscope heq
    obtain ⟨c', tenant', htenant'⟩ : ∃ c' tenant', scope.tenantId.toList = c' :: tenant' := by
      refine List.exists_cons_of_ne_nil fun hnil => hscope (String.toList_inj.mp ?_)
      rw [hnil]
      rfl
    rw [htenant] at hnotTenant
    rw [htenant, htenant'] at heq
    obtain ⟨rfl, rfl, hproject, hresource⟩ :=
      joined_unique hnotTenant hnotProject hnotResource heq
    have horg' : state.orgId = scope.tenantId := String.toList_inj.mp (htenant.trans htenant'.symm)
    refine ⟨?_, String.toList_inj.mp hresource⟩
    unfold ProjectState.leaseScope
    rw [horg', String.toList_inj.mp hproject]

/-- A fresh state of an organisation and a project. -/
def freshState (orgId projectId : String) : ProjectState :=
  ProjectState.createEmpty (some orgId) projectId "Parser" "A parser"

theorem freshState_valid {orgId : String} (h : orgId ≠ "") (projectId : String) :
    validateProjectState (freshState orgId projectId) = [] :=
  validateProjectState_eq_nil_iff.mpr
    (createEmpty_valid (fun heq => h (Option.some.inj heq)) projectId _ _)

/-- The lock of all runs of a project, with ids that have no colon. -/
theorem lockIsolated_iff_fresh : LockIsolated (freshState "default-org" "P-1") "global-run-cycle" := by
  have hvalid := freshState_valid (show "default-org" ≠ "" by decide) "P-1"
  exact (lockIsolated_iff hvalid "global-run-cycle").mpr ⟨by decide, by decide, by decide⟩

/-- **Two tenants with one lock**: the organisation `a:b` with the project `c`, and the organisation
`a` with the project `b:c`. -/
theorem lock_shared :
    validateProjectState (freshState "a:b" "c") = [] ∧
      validateProjectState (freshState "a" "b:c") = [] ∧
      (freshState "a:b" "c").leaseScope ≠ (freshState "a" "b:c").leaseScope ∧
      formatScopedLeaseResource "global-run-cycle" (some (freshState "a:b" "c").leaseScope) =
        formatScopedLeaseResource "global-run-cycle" (some (freshState "a" "b:c").leaseScope) ∧
      formatScopedRunLockKey "global-run-cycle" (some (freshState "a:b" "c").leaseScope) =
        formatScopedRunLockKey "global-run-cycle" (some (freshState "a" "b:c").leaseScope) :=
  ⟨freshState_valid (by decide) "c", freshState_valid (by decide) "b:c", by decide, by decide,
    by decide⟩

end AiOrchestrator
