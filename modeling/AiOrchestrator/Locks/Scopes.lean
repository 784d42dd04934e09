import AiOrchestrator.Core.Idempotency

/-!
# Scopes of lock resources

The name under which a lease or a run lock of a tenant's project is held is the join of the tenant,
the project and the resource with colons
(`packages/execution/src/leases/execution-lease-authority.ts`,
`packages/execution/src/lock-authority.ts`). The texts themselves may hold colons here;
`assertTenantScope` (`packages/core/src/multitenancy-tenant-scope.ts`), which excludes them, is not
called on this path.
-/

namespace AiOrchestrator

/-- `ExecutionLeaseScope`, and the scope of a run lock. -/
structure ExecutionLeaseScope where
  tenantId : String
  projectId : String
deriving DecidableEq, Repr

/-- A resource in a scope. -/
def scopedResource (resource : String) : Option ExecutionLeaseScope → String
  | none => resource
  | some scope => s!"{scope.tenantId}:{scope.projectId}:{resource}"

/-- `formatScopedLeaseResource`. -/
def formatScopedLeaseResource (resource : String) (scope : Option ExecutionLeaseScope) : String :=
  scopedResource resource scope

/-- `formatScopedRunLockKey`. -/
def formatScopedRunLockKey (key : String) (scope : Option ExecutionLeaseScope) : String :=
  scopedResource key scope

/-- `assertScopePart`. -/
def assertScopePart (value field : String) : Except RuntimeError Unit :=
  if Text.isBlank value then .error (.plain s!"{field} must be a non-empty string")
  else if Text.includes value ":" then .error (.plain s!"{field} must not include ':'")
  else .ok ()

/-- `assertTenantScope`. -/
def assertTenantScope (scope : ExecutionLeaseScope) : Except RuntimeError Unit := do
  assertScopePart scope.tenantId "tenantId"
  assertScopePart scope.projectId "projectId"

theorem toList_scopedResource (resource : String) (scope : ExecutionLeaseScope) :
    (scopedResource resource (some scope)).toList =
      scope.tenantId.toList ++ ':' :: (scope.projectId.toList ++ ':' :: resource.toList) := by
  have hcolon : ":".toList = [':'] := rfl
  change (scope.tenantId ++ ":" ++ scope.projectId ++ ":" ++ resource).toList = _
  simp [hcolon]

/-- Texts joined by two colons, the first of them not empty, are the only ones that are joined to
this text if there is no other colon in it behind its first character. -/
theorem joined_unique {c c' : Char} {tenant tenant' project project' resource resource' : List Char}
    (htenant : ':' ∉ tenant) (hproject : ':' ∉ project) (hresource : ':' ∉ resource)
    (h : c :: tenant ++ ':' :: (project ++ ':' :: resource) =
      c' :: tenant' ++ ':' :: (project' ++ ':' :: resource')) :
    c = c' ∧ tenant = tenant' ∧ project = project' ∧ resource = resource' := by
  rw [List.cons_append, List.cons_append] at h
  obtain ⟨hhead, htail⟩ := List.cons.inj h
  have hcount := congrArg (List.count ':') htail
  simp only [List.count_append, List.count_cons_self, List.count_eq_zero_of_not_mem htenant,
    List.count_eq_zero_of_not_mem hproject, List.count_eq_zero_of_not_mem hresource] at hcount
  have htenant' : ':' ∉ tenant' := List.count_eq_zero.mp (by omega)
  have hproject' : ':' ∉ project' := List.count_eq_zero.mp (by omega)
  obtain ⟨hsame, hrest⟩ := split_at_colon htenant htenant' htail
  obtain ⟨hsame', hresources⟩ := split_at_colon hproject hproject' hrest
  exact ⟨hhead, hsame, hsame', hresources⟩

theorem assertScopePart_of_ok {value field : String} (h : assertScopePart value field = .ok ()) :
    ':' ∉ value.toList := by
  unfold assertScopePart at h
  split_ifs at h with hblank hcolon
  intro hmem
  obtain ⟨before, after, heq⟩ := List.append_of_mem hmem
  refine hcolon (Text.includes_iff.mpr ⟨before, after, ?_⟩)
  rw [heq, List.append_assoc]
  rfl

theorem assertTenantScope_of_ok {scope : ExecutionLeaseScope}
    (h : assertTenantScope scope = .ok ()) :
    ':' ∉ scope.tenantId.toList ∧ ':' ∉ scope.projectId.toList := by
  unfold assertTenantScope at h
  rcases htenant : assertScopePart scope.tenantId "tenantId" with error | ⟨⟩
  · rw [htenant] at h
    cases h
  · rw [htenant] at h
    exact ⟨assertScopePart_of_ok htenant, assertScopePart_of_ok h⟩

/-- Scopes that `assertTenantScope` accepts separate their resources, whatever these are. -/
theorem scopedResource_injective {scope scope' : ExecutionLeaseScope} {resource resource' : String}
    (hscope : assertTenantScope scope = .ok ()) (hscope' : assertTenantScope scope' = .ok ())
    (h : scopedResource resource (some scope) = scopedResource resource' (some scope')) :
    scope = scope' ∧ resource = resource' := by
  have hparts := assertTenantScope_of_ok hscope
  have hparts' := assertTenantScope_of_ok hscope'
  have hlists := congrArg String.toList h
  rw [toList_scopedResource, toList_scopedResource] at hlists
  obtain ⟨htenant, hrest⟩ := split_at_colon hparts.1 hparts'.1 hlists
  obtain ⟨hproject, hresource⟩ := split_at_colon hparts.2 hparts'.2 hrest
  obtain ⟨tenantId, projectId⟩ := scope
  obtain ⟨tenantId', projectId'⟩ := scope'
  cases String.toList_inj.mp htenant
  cases String.toList_inj.mp hproject
  exact ⟨rfl, String.toList_inj.mp hresource⟩

end AiOrchestrator
