import AiOrchestrator.Results.Dashboard

/-!
# Rolled-up metrics

`getMetricsAudit` takes the samples with the newest first and lets every further sample of a bucket overwrite the last
value, so the value that stays is the oldest; and samples whose tags have been written in another order are put into
another bucket. The rows of a bucket are read off its samples (`RowOf.summary`); what they should be, and when they are
it, is said by `IsRollup` and `metricRollup_iff`.
-/

namespace AiOrchestrator

open DashboardQueryService

/-! ### Series -/

/-- What the samples of one bucket have in common. -/
@[ext] structure MetricSeries where
  metricType : TelemetryMetricType
  name : String
  tags : Record String
deriving DecidableEq

def TelemetryMetricRecord.series (metric : TelemetryMetricRecord) : MetricSeries where
  metricType := metric.metricType
  name := metric.name
  tags := metric.tags

def MetricRollupItemView.series (row : MetricRollupItemView) : MetricSeries where
  metricType := row.metricType
  name := row.name
  tags := row.tags

/-- The same type, name and tags, in whatever order the tags are. -/
def MetricSeries.Same (series series' : MetricSeries) : Prop :=
  series.metricType = series'.metricType ∧ series.name = series'.name ∧
    series.tags.entries.Perm series'.tags.entries

instance : DecidableRel MetricSeries.Same := fun _ _ => inferInstanceAs (Decidable (_ ∧ _ ∧ _))

theorem MetricSeries.Same.refl (series : MetricSeries) : series.Same series := ⟨rfl, rfl, List.Perm.refl _⟩

theorem MetricSeries.Same.symm {series series' : MetricSeries} (h : series.Same series') :
    series'.Same series :=
  ⟨h.1.symm, h.2.1.symm, h.2.2.symm⟩

theorem MetricSeries.Same.trans {series series' series'' : MetricSeries} (h : series.Same series')
    (h' : series'.Same series'') : series.Same series'' :=
  ⟨h.1.trans h'.1, h.2.1.trans h'.2.1, h.2.2.trans h'.2.2⟩

/-! ### Keys -/

/-- A text before the text of a flat object is found again: no other colon is in front of one. -/
theorem append_flatText_injective {name name' : List Char} {tags tags' : List (String × String)}
    (h : name ++ ':' :: (Json.flatText Decimal.text tags).toList =
      name' ++ ':' :: (Json.flatText Decimal.text tags').toList) : name = name' ∧ tags = tags' := by
  -- the longer name would reach into the other object
  have hnone : ∀ {rest : List Char} {tags tags' : List (String × String)},
      ':' :: (Json.flatText Decimal.text tags).toList =
        rest ++ ':' :: (Json.flatText Decimal.text tags').toList → rest = [] := by
    intro rest tags tags' hrest
    cases rest with
    | nil => rfl
    | cons c rest =>
      rw [List.cons_append] at hrest
      obtain ⟨-, htext⟩ := List.cons.inj hrest
      have hfront : (Json.flatText Decimal.text tags).toList =
          (rest ++ [':']) ++ (Json.flatText Decimal.text tags').toList := by
        rw [htext, List.append_assoc, List.singleton_append]
      exact absurd (Json.append_flatText hfront) (by simp)
  have hname : name = name' := by
    rcases List.append_eq_append_iff.mp h with ⟨rest, hname, hrest⟩ | ⟨rest, hname, hrest⟩
    · rw [hname, hnone hrest, List.append_nil]
    · rw [hname, hnone hrest, List.append_nil]
  subst hname
  refine ⟨rfl, Json.flatText_injective Decimal.numberText_text ?_⟩
  exact String.toList_inj.mp (List.cons.inj (List.append_cancel_left h)).2

theorem toList_bucketKey (metric : TelemetryMetricRecord) :
    (bucketKey metric).toList = metric.metricType.text.toList ++ ':' :: (metric.name.toList ++
      ':' :: (Json.flatText Decimal.text metric.tags.entries).toList) := by
  simp [bucketKey, toString]

/-- The names of the types are found again before a colon. -/
theorem metricType_text_injective {type type' : TelemetryMetricType} {rest rest' : List Char}
    (h : type.text.toList ++ ':' :: rest = type'.text.toList ++ ':' :: rest') : type = type' ∧ rest = rest' := by
  cases type <;> cases type' <;> simp_all [TelemetryMetricType.text]

/-- **The key of a bucket** says what its samples have in common. -/
theorem bucketKey_eq_iff {metric metric' : TelemetryMetricRecord} :
    bucketKey metric = bucketKey metric' ↔ metric.series = metric'.series := by
  constructor
  · intro h
    have hlist := congrArg String.toList h
    rw [toList_bucketKey, toList_bucketKey] at hlist
    obtain ⟨htype, hrest⟩ := metricType_text_injective hlist
    obtain ⟨hname, htags⟩ := append_flatText_injective hrest
    rw [TelemetryMetricRecord.series, TelemetryMetricRecord.series, htype, String.toList_inj.mp hname,
      Dict.ext_entries htags]
  · intro h
    obtain ⟨htype, hname, htags⟩ := MetricSeries.mk.inj h
    rw [bucketKey, bucketKey, htype, hname, htags]

/-! ### Rows -/

/-- **What a row says about the samples of its key**, in the order in which they came. -/
structure RowOf (samples : List TelemetryMetricRecord) (row : MetricRollupItemView) : Prop where
  series : ∃ sample ∈ samples, row.series = sample.series
  total : row.total = (samples.map TelemetryMetricRecord.value).sum
  count : row.sampleCount = samples.length
  last : ∃ front sample, samples = front ++ [sample] ∧ row.lastValue = sample.value ∧
    row.lastSeenAt = sample.createdAt

theorem rowOf_singleton (sample : TelemetryMetricRecord) : RowOf [sample] (firstRow sample) where
  series := ⟨sample, List.mem_cons_self, rfl⟩
  total := (List.sum_singleton).symm
  count := rfl
  last := ⟨[], sample, rfl, rfl, rfl⟩

/-- A further sample. -/
theorem RowOf.concat {samples : List TelemetryMetricRecord} {row : MetricRollupItemView}
    (h : RowOf samples row) (sample : TelemetryMetricRecord) :
    RowOf (samples ++ [sample]) (addToRow row sample) where
  series := by
    obtain ⟨first, hfirst, hseries⟩ := h.series
    exact ⟨first, List.mem_append_left _ hfirst, hseries⟩
  total := by
    rw [List.map_append, List.sum_append, ← h.total, List.map_singleton, List.sum_singleton]
    rfl
  count := by
    rw [List.length_append, ← h.count]
    rfl
  last := ⟨samples, sample, rfl, rfl, rfl⟩

/-- **The row of a bucket** is read off its samples. -/
theorem RowOf.summary {samples : List TelemetryMetricRecord} {row : MetricRollupItemView}
    (h : Rollup.summary firstRow addToRow samples = some row) : RowOf samples row := by
  induction samples using List.reverseRecOn generalizing row with
  | nil => cases h
  | append_singleton samples sample ih =>
    rw [Rollup.summary_concat] at h
    obtain rfl := Option.some.inj h
    cases hsummary : Rollup.summary firstRow addToRow samples with
    | none =>
      rw [(Rollup.summary_eq_none_iff firstRow addToRow).mp hsummary]
      exact rowOf_singleton sample
    | some row => exact (ih hsummary).concat sample

/-! ### The rows of a query -/

section Rows

variable {α : Type} (service : DashboardQueryService α) (query : HistoryQueryInput)

/-- The samples that a query selects, as they were recorded. -/
def selectedMetrics : List TelemetryMetricRecord :=
  match service.observabilityStore with
  | some store => store.metrics.filter fun record => matchesMetricQuery record
      { runId := query.runId, correlationId := query.correlationId }
  | none => []

theorem metricsOf_eq :
    service.metricsOf query = (selectedMetrics service query).insertionSort
      (NewestFirst service.host TelemetryMetricRecord.createdAt) := by
  unfold metricsOf selectedMetrics
  cases service.observabilityStore <;> rfl

/-- The samples of a series, as the store lists them. -/
def listedOf (series : MetricSeries) : List TelemetryMetricRecord :=
  (service.metricsOf query).filter fun metric => metric.series = series

theorem listedOf_perm (series : MetricSeries) :
    (listedOf service query series).Perm
      ((selectedMetrics service query).filter fun metric => metric.series = series) := by
  rw [listedOf, metricsOf_eq]
  exact (List.perm_insertionSort ..).filter _

theorem mem_listedOf {series : MetricSeries} {metric : TelemetryMetricRecord} :
    metric ∈ listedOf service query series ↔
      metric ∈ selectedMetrics service query ∧ metric.series = series := by
  rw [(listedOf_perm service query series).mem_iff, List.mem_filter, decide_eq_true_iff]

/-- The samples of a key are those of the series. -/
theorem filter_bucketKey (metric : TelemetryMetricRecord) :
    ((service.metricsOf query).filter fun other => bucketKey other = bucketKey metric) =
      listedOf service query metric.series := by
  refine List.filter_congr fun other _ => ?_
  rw [decide_eq_decide]
  exact bucketKey_eq_iff

/-- A row and the key that it stands under. -/
theorem rowOf_of_get? {key : String} {row : MetricRollupItemView}
    (h : (Rollup.rollup bucketKey firstRow addToRow (service.metricsOf query)).get? key = some row) :
    ∃ metric ∈ selectedMetrics service query, bucketKey metric = key ∧ row.series = metric.series ∧
      RowOf (listedOf service query metric.series) row := by
  have hkey := (Rollup.mem_keys_rollup bucketKey firstRow addToRow).mp (Dict.mem_keys_of_get? h)
  obtain ⟨metric, hmem, rfl⟩ := hkey
  rw [Rollup.get?_rollup, filter_bucketKey] at h
  have hrow := RowOf.summary h
  obtain ⟨first, hfirst, hseries⟩ := hrow.series
  rw [((mem_listedOf service query).mp hfirst).2] at hseries
  rw [metricsOf_eq, List.mem_insertionSort] at hmem
  exact ⟨metric, hmem, rfl, hseries, hrow⟩

/-- Every row is that of a series with samples. -/
theorem rowOf_of_mem {row : MetricRollupItemView} (h : row ∈ rollupRows service query) :
    ∃ metric ∈ selectedMetrics service query, row.series = metric.series ∧
      RowOf (listedOf service query metric.series) row := by
  obtain ⟨key, hkey⟩ := Dict.mem_values_iff.mp h
  obtain ⟨metric, hmem, -, hseries, hrow⟩ := rowOf_of_get? service query hkey
  exact ⟨metric, hmem, hseries, hrow⟩

/-- Every sample has the row of its series. -/
theorem exists_row {metric : TelemetryMetricRecord} (hmem : metric ∈ selectedMetrics service query) :
    ∃ row ∈ rollupRows service query, row.series = metric.series := by
  have hlisted : metric ∈ service.metricsOf query := by
    rw [metricsOf_eq, List.mem_insertionSort]
    exact hmem
  have hkey := (Rollup.mem_keys_rollup bucketKey firstRow addToRow).mpr ⟨metric, hlisted, rfl⟩
  obtain ⟨row, hrow⟩ := Dict.exists_get?_iff.mpr hkey
  obtain ⟨other, -, hother, hseries, -⟩ := rowOf_of_get? service query hrow
  exact ⟨row, Dict.mem_values_of_get? hrow, hseries.trans (bucketKey_eq_iff.mp hother)⟩

/-- No two rows are of one series. -/
theorem pairwise_series :
    (rollupRows service query).Pairwise fun row row' => row.series ≠ row'.series := by
  have hentries := Rollup.rollup bucketKey firstRow addToRow (service.metricsOf query) |>.nodup
  refine List.pairwise_map.mpr (List.Pairwise.imp_of_mem ?_ (List.pairwise_map.mp hentries))
  intro entry entry' hentry hentry' hne heq
  obtain ⟨metric, -, hkey, hseries, -⟩ := rowOf_of_get? service query (Dict.get?_eq_some_iff.mpr hentry)
  obtain ⟨metric', -, hkey', hseries', -⟩ := rowOf_of_get? service query (Dict.get?_eq_some_iff.mpr hentry')
  rw [hseries, hseries'] at heq
  exact hne (hkey.symm.trans ((bucketKey_eq_iff.mpr heq).trans hkey'))

end Rows

/-! ### What is promised -/

/-- The samples of a row: those of the same type, name and tags. -/
def bucketOf (samples : List TelemetryMetricRecord) (row : MetricRollupItemView) : List TelemetryMetricRecord :=
  samples.filter fun sample => sample.series.Same row.series

/-- **The rollup of samples**: one row for each type, name and set of tags, with the sum and the number of its
samples, and the value and the time of a newest one. -/
structure IsRollup (host : Host) (samples : List TelemetryMetricRecord) (rows : List MetricRollupItemView) :
    Prop where
  complete : ∀ sample ∈ samples, ∃ row ∈ rows, sample.series.Same row.series
  distinct : rows.Pairwise fun row row' => ¬ row.series.Same row'.series
  total : ∀ row ∈ rows, row.total = ((bucketOf samples row).map TelemetryMetricRecord.value).sum
  count : ∀ row ∈ rows, row.sampleCount = (bucketOf samples row).length
  latest : ∀ row ∈ rows, ∃ sample ∈ bucketOf samples row, row.lastValue = sample.value ∧
    row.lastSeenAt = sample.createdAt ∧
    ∀ other ∈ bucketOf samples row, OldestFirst host TelemetryMetricRecord.createdAt other sample

theorem mem_bucketOf {samples : List TelemetryMetricRecord} {row : MetricRollupItemView}
    {sample : TelemetryMetricRecord} :
    sample ∈ bucketOf samples row ↔ sample ∈ samples ∧ sample.series.Same row.series := by
  rw [bucketOf, List.mem_filter, decide_eq_true_iff]

/-- The order of the rows does not matter. -/
theorem IsRollup.perm {host : Host} {samples : List TelemetryMetricRecord}
    {rows rows' : List MetricRollupItemView} (h : IsRollup host samples rows) (hperm : rows.Perm rows') :
    IsRollup host samples rows' where
  complete sample hsample := by
    obtain ⟨row, hrow, hsame⟩ := h.complete sample hsample
    exact ⟨row, hperm.mem_iff.mp hrow, hsame⟩
  distinct := (hperm.pairwise_iff fun hne hsame => hne hsame.symm).mp h.distinct
  total row hrow := h.total row (hperm.mem_iff.mpr hrow)
  count row hrow := h.count row (hperm.mem_iff.mpr hrow)
  latest row hrow := h.latest row (hperm.mem_iff.mpr hrow)

/-- In every bucket the tags are in one order and the samples of one time. -/
def UniformBuckets (host : Host) (samples : List TelemetryMetricRecord) : Prop :=
  ∀ sample ∈ samples, ∀ other ∈ samples, sample.series.Same other.series →
    sample.tags = other.tags ∧ host.localeCompare sample.createdAt other.createdAt = .eq

theorem UniformBuckets.series_eq {host : Host} {samples : List TelemetryMetricRecord}
    (h : UniformBuckets host samples) {sample other : TelemetryMetricRecord} (hsample : sample ∈ samples)
    (hother : other ∈ samples) (hsame : sample.series.Same other.series) : sample.series = other.series := by
  obtain ⟨htags, -⟩ := h sample hsample other hother hsame
  obtain ⟨htype, hname, -⟩ := hsame
  exact MetricSeries.ext htype hname htags

section Result

variable {α : Type} {service : DashboardQueryService α} {query : HistoryQueryInput}

/-- In uniform buckets a row has the samples of its series. -/
theorem UniformBuckets.bucketOf_perm (h : UniformBuckets service.host (selectedMetrics service query))
    {metric : TelemetryMetricRecord} (hmetric : metric ∈ selectedMetrics service query)
    {row : MetricRollupItemView} (hseries : row.series = metric.series) :
    (listedOf service query metric.series).Perm (bucketOf (selectedMetrics service query) row) := by
  refine (listedOf_perm service query metric.series).trans (List.Perm.of_eq ?_)
  refine List.filter_congr fun sample hsample => ?_
  rw [decide_eq_decide, hseries]
  constructor
  · intro heq
    rw [heq]
    exact .refl _
  · intro hsame
    exact h.series_eq hsample hmetric hsame

/-- The rows of uniform buckets are the rollup. -/
theorem UniformBuckets.isRollup (h : UniformBuckets service.host (selectedMetrics service query)) :
    IsRollup service.host (selectedMetrics service query) (rollupRows service query) where
  complete sample hsample := by
    obtain ⟨row, hrow, hseries⟩ := exists_row service query hsample
    refine ⟨row, hrow, ?_⟩
    rw [hseries]
    exact .refl _
  distinct := by
    refine List.Pairwise.imp_of_mem ?_ (pairwise_series service query)
    intro row row' hrow hrow' hne hsame
    obtain ⟨metric, hmetric, hseries, -⟩ := rowOf_of_mem service query hrow
    obtain ⟨metric', hmetric', hseries', -⟩ := rowOf_of_mem service query hrow'
    rw [hseries, hseries'] at hne hsame
    exact hne (h.series_eq hmetric hmetric' hsame)
  total row hrow := by
    obtain ⟨metric, hmetric, hseries, hrowOf⟩ := rowOf_of_mem service query hrow
    rw [hrowOf.total]
    exact ((h.bucketOf_perm hmetric hseries).map _).sum_eq
  count row hrow := by
    obtain ⟨metric, hmetric, hseries, hrowOf⟩ := rowOf_of_mem service query hrow
    rw [hrowOf.count]
    exact (h.bucketOf_perm hmetric hseries).length_eq
  latest row hrow := by
    obtain ⟨metric, hmetric, hseries, hrowOf⟩ := rowOf_of_mem service query hrow
    have hperm := h.bucketOf_perm hmetric hseries
    obtain ⟨front, sample, hsplit, hvalue, htime⟩ := hrowOf.last
    have hsample : sample ∈ bucketOf (selectedMetrics service query) row := by
      rw [← hperm.mem_iff, hsplit]
      exact List.mem_append_right _ List.mem_cons_self
    refine ⟨sample, hsample, hvalue, htime, fun other hother => ?_⟩
    -- all samples of the bucket are of one time
    obtain ⟨hmemSample, hsameSample⟩ := mem_bucketOf.mp hsample
    obtain ⟨hmemOther, hsameOther⟩ := mem_bucketOf.mp hother
    have htimes := (h other hmemOther sample hmemSample (hsameOther.trans hsameSample.symm)).2
    rw [OldestFirst, htimes]
    exact nofun

variable [Std.TransCmp service.host.localeCompare]

omit [Std.TransCmp service.host.localeCompare] in
/-- Two times that are not behind each other are the same. -/
theorem compare_eq_of_oldest {host : Host} [Std.TransCmp host.localeCompare]
    {metric other : TelemetryMetricRecord}
    (h : OldestFirst host TelemetryMetricRecord.createdAt other metric)
    (h' : host.localeCompare metric.createdAt other.createdAt ≠ .gt) :
    host.localeCompare metric.createdAt other.createdAt = .eq := by
  rw [OldestFirst, @Std.OrientedCmp.eq_swap _ host.localeCompare] at h
  cases hcompare : host.localeCompare metric.createdAt other.createdAt with
  | lt =>
    rw [hcompare] at h
    exact absurd rfl h
  | eq => rfl
  | gt => exact absurd hcompare h'

/-- A row whose time is that of a newest sample has samples of one time. -/
theorem compare_eq_of_latest (h : IsRollup service.host (selectedMetrics service query)
      (rollupRows service query)) {metric other : TelemetryMetricRecord}
    (hmetric : metric ∈ selectedMetrics service query) (hother : other ∈ selectedMetrics service query)
    (hseries : metric.series = other.series) :
    service.host.localeCompare metric.createdAt other.createdAt = .eq := by
  obtain ⟨row, hrow, hrowSeries⟩ := exists_row service query hmetric
  obtain ⟨first, -, hfirst, hrowOf⟩ := rowOf_of_mem service query hrow
  obtain ⟨front, last, hsplit, -, hlast⟩ := hrowOf.last
  obtain ⟨newest, hnewest, -, htime, hgreatest⟩ := h.latest row hrow
  rw [← hfirst, hrowSeries] at hsplit
  have hsorted : (front ++ [last]).Pairwise (NewestFirst service.host TelemetryMetricRecord.createdAt) := by
    rw [← hsplit, listedOf, metricsOf_eq]
    exact (List.pairwise_insertionSort ..).filter _
  -- the row's time is that of an oldest and of a newest sample
  have hsame : ∀ sample, sample ∈ selectedMetrics service query → sample.series = metric.series →
      service.host.localeCompare sample.createdAt last.createdAt = .eq := by
    intro sample hsample hsampleSeries
    have holdest : OldestFirst service.host TelemetryMetricRecord.createdAt last sample := by
      have hmem : sample ∈ front ++ [last] := by
        rw [← hsplit]
        exact (mem_listedOf service query).mpr ⟨hsample, hsampleSeries⟩
      rcases List.mem_append.mp hmem with hfront | hlastMem
      · exact (List.pairwise_append.mp hsorted).2.2 sample hfront last List.mem_cons_self
      · rw [List.mem_singleton.mp hlastMem]
        exact (Std.Total.total last last).elim id id
    have hnewest : OldestFirst service.host TelemetryMetricRecord.createdAt sample newest := by
      refine hgreatest sample (mem_bucketOf.mpr ⟨hsample, ?_⟩)
      rw [hsampleSeries, hrowSeries]
      exact .refl _
    rw [OldestFirst, ← htime, hlast] at hnewest
    exact compare_eq_of_oldest holdest hnewest
  have hmetricEq := hsame metric hmetric rfl
  have hotherEq := hsame other hother hseries.symm
  exact Std.TransCmp.eq_trans hmetricEq (Std.OrientedCmp.eq_symm hotherEq)

/-- **The rows are the rollup** exactly in uniform buckets. -/
theorem isRollup_rollupRows_iff :
    IsRollup service.host (selectedMetrics service query) (rollupRows service query) ↔
      UniformBuckets service.host (selectedMetrics service query) := by
  constructor
  · intro h sample hsample other hother hsame
    have hseries : sample.series = other.series := by
      obtain ⟨row, hrow, hrowSeries⟩ := exists_row service query hsample
      obtain ⟨row', hrow', hrowSeries'⟩ := exists_row service query hother
      by_contra hne
      have hrows : row ≠ row' := by
        rintro rfl
        exact hne (hrowSeries.symm.trans hrowSeries')
      have hsymm : Std.Symm fun row row' : MetricRollupItemView => ¬ row.series.Same row'.series :=
        ⟨fun _ _ hne hsame => hne hsame.symm⟩
      have hdistinct := h.distinct.forall hrow hrow' hrows
      rw [hrowSeries, hrowSeries'] at hdistinct
      exact hdistinct hsame
    exact ⟨congrArg MetricSeries.tags hseries, compare_eq_of_latest h hsample hother hseries⟩
  · exact UniformBuckets.isRollup

omit [Std.TransCmp service.host.localeCompare] in
/-- A first page that holds all rows is the sorted list of them. -/
theorem items_getMetricsAudit {limit : Nat}
    (hlimit : (service.getMetricsAudit (query.atPage limit 0)).total ≤ limit) :
    (service.getMetricsAudit (query.atPage limit 0)).items =
      (rollupRows service query).insertionSort (NewestFirst service.host MetricRollupItemView.lastSeenAt) := by
  show page (0 * limit) limit ((rollupRows service query).insertionSort _) = _
  rw [page, Nat.zero_mul, List.drop_zero]
  exact List.take_of_length_le hlimit

end Result

/-- The rollup as the query answers it: the page that holds all rows is the rollup of the selected samples. -/
def RolledUp {α : Type} (service : DashboardQueryService α) (query : HistoryQueryInput) : Prop :=
  ∀ limit, (service.getMetricsAudit (query.atPage limit 0)).total ≤ limit →
    IsRollup service.host (selectedMetrics service query) (service.getMetricsAudit (query.atPage limit 0)).items

/-- The answer is the rollup if the rows are. -/
theorem rolledUp_iff_isRollup {α : Type} {service : DashboardQueryService α} {query : HistoryQueryInput} :
    RolledUp service query ↔
      IsRollup service.host (selectedMetrics service query) (rollupRows service query) := by
  constructor
  · intro h
    have htotal : (service.getMetricsAudit (query.atPage (rollupRows service query).length 0)).total =
        (rollupRows service query).length := List.length_insertionSort ..
    have hitems := h _ htotal.le
    rw [items_getMetricsAudit htotal.le] at hitems
    exact hitems.perm (List.perm_insertionSort ..)
  · intro h limit hlimit
    rw [items_getMetricsAudit hlimit]
    exact h.perm (List.perm_insertionSort ..).symm

/-- **The metrics audit** is the rollup of the recorded samples if and only if the samples of every bucket have their
tags in one order and their times are the same. -/
theorem metricRollup_iff {α : Type} (service : DashboardQueryService α) (query : HistoryQueryInput)
    [Std.TransCmp service.host.localeCompare] :
    RolledUp service query ↔ UniformBuckets service.host (selectedMetrics service query) :=
  rolledUp_iff_isRollup.trans isRollup_rollupRows_iff

/-- A sample of a counter. -/
def runsSample (value : ℚ) (tags : List (String × String)) (createdAt : String) : TelemetryMetricRecord where
  id := createdAt
  name := "runs"
  metricType := .counter
  value := value
  tags := Dict.ofList tags
  createdAt := createdAt
  runId := none
  correlationId := none
  expiresAt := none

/-- A service with samples. -/
def metricsService (metrics : List TelemetryMetricRecord) : DashboardQueryService Unit :=
  { sampleService (ProjectState.createEmpty none "project-1" "Project" "Summary") [] with
    observabilityStore := some { metrics := metrics, spans := [] } }

instance (metrics : List TelemetryMetricRecord) :
    Std.TransCmp (metricsService metrics).host.localeCompare :=
  inferInstanceAs (Std.TransCmp codePointHost.localeCompare)

/-- Two samples of one time. -/
theorem metricRollup_iff_one_time :
    RolledUp (metricsService [runsSample 1 [] "2026-03-10T00:00:00.000Z",
      runsSample 2 [] "2026-03-10T00:00:00.000Z"]) {} := by
  refine (metricRollup_iff _ {}).mpr ?_
  intro sample hsample other hother _
  have htimes : ∀ metric ∈ selectedMetrics (metricsService [runsSample 1 [] "2026-03-10T00:00:00.000Z",
      runsSample 2 [] "2026-03-10T00:00:00.000Z"]) {},
      metric.tags = Dict.ofList [] ∧ metric.createdAt = "2026-03-10T00:00:00.000Z" := by
    intro metric hmetric
    rcases List.mem_cons.mp hmetric with rfl | hmetric
    · exact ⟨rfl, rfl⟩
    · rw [List.mem_singleton.mp hmetric]
      exact ⟨rfl, rfl⟩
  rw [(htimes sample hsample).1, (htimes sample hsample).2, (htimes other hother).1, (htimes other hother).2]
  exact ⟨rfl, Std.ReflCmp.compare_self⟩

/-- Of two samples the older one stays, and samples are in two rows if their tags are in another order. -/
theorem runsSamples_not_rolledUp :
    ¬ RolledUp (metricsService [runsSample 1 [] "2026-03-10T00:00:00.000Z",
        runsSample 2 [] "2026-03-10T01:00:00.000Z"]) {} ∧
    ¬ RolledUp (metricsService [runsSample 1 [("a", "1"), ("b", "2")] "2026-03-10T00:00:00.000Z",
        runsSample 2 [("b", "2"), ("a", "1")] "2026-03-10T00:00:00.000Z"]) {} := by
  constructor
  · intro h
    have huniform := isRollup_rollupRows_iff.mp (rolledUp_iff_isRollup.mp h)
    have htime := (huniform _ List.mem_cons_self _ (List.mem_cons_of_mem _ List.mem_cons_self) (.refl _)).2
    exact absurd (@Std.LawfulEqCmp.eq_of_compare _ codePointHost.localeCompare _ _ _ htime) (by decide)
  · intro h
    have huniform := isRollup_rollupRows_iff.mp (rolledUp_iff_isRollup.mp h)
    have htags := (huniform _ List.mem_cons_self _ (List.mem_cons_of_mem _ List.mem_cons_self)
      ⟨rfl, rfl, List.Perm.swap ..⟩).1
    exact absurd htags (by decide)

end AiOrchestrator
