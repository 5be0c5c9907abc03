import StreetDogs.Metrics
import StreetDogs.Proofs.Binary32.Product

/-!
# Statistics of tick times

The times of the latest thousand ticks are kept, and from the tenth tick on
their greatest one and two of their percentiles are published.  The place of a
percentile is a product of binary32 numbers without its fraction.  The share is
rounded and so is the product, but for no number of ticks by so much that the
place would leave out one of the ticks it has to cover.
-/

namespace StreetDogs.Metrics

open Binary32 (value exact_of_unpacked ofNat_exact toNat_mul_bounds)

/-- The binary32 number is `m / 2 ^ 24`, nearest to `parts` hundredths, at least
one half and below one. -/
structure IsShare (share : Float32) (parts m : ℕ) : Prop where
  isFinite : share.isFinite = true
  value_eq : value share = m / 2 ^ 24
  low : 2 ^ 23 ≤ m
  high : m < 2 ^ 24
  parts_le : parts * 2 ^ 24 ≤ 100 * m + 50
  le_parts : 100 * m ≤ parts * 2 ^ 24 + 50

theorem isShare_of_unpacked {share : Float32} {parts m : ℕ} (hpos : 0 < m)
    (h : Binary32.unpacked share = .finite .positive m (-24) hpos) (hlow : 2 ^ 23 ≤ m)
    (hhigh : m < 2 ^ 24) (hparts : parts * 2 ^ 24 ≤ 100 * m + 50)
    (hparts' : 100 * m ≤ parts * 2 ^ 24 + 50) : IsShare share parts m := by
  obtain ⟨hfinite, hvalue⟩ := exact_of_unpacked hpos h
  refine ⟨hfinite, ?_, hlow, hhigh, hparts, hparts'⟩
  rw [hvalue, zpow_neg, ← div_eq_mul_inv]
  norm_cast

/-- The share of the lower percentile is rounded down. -/
theorem isShare_p95 : IsShare 0.95 95 15938355 :=
  isShare_of_unpacked (by decide) rfl (by decide) (by decide) (by decide) (by decide)

/-- The share of the upper percentile is rounded up. -/
theorem isShare_p99 : IsShare 0.99 99 16609444 :=
  isShare_of_unpacked (by decide) rfl (by decide) (by decide) (by decide) (by decide)

variable {count m m' parts parts' : ℕ} {share share' : Float32}

/-- The place of a percentile is not below the whole part of the exact product,
and above the product by at most one part in `2 ^ 23`. -/
theorem percentileIndex_bounds (hshare : IsShare share parts m) (hcount : 2 ≤ count)
    (hlimit : count < 2 ^ 23) :
    count * m < (percentileIndex count share + 1) * 2 ^ 24 ∧
      percentileIndex count share * 2 ^ 47 ≤ count * m * (2 ^ 23 + 1) := by
  obtain ⟨hfinite, hwhole⟩ := ofNat_exact hlimit
  have hproduct : value (Float32.ofNat count) * value share = (count * m : ℕ) / 2 ^ 24 := by
    rw [hwhole, hshare.value_eq]
    push_cast
    ring
  have hone : 1 ≤ value (Float32.ofNat count) * value share := by
    rw [hproduct, le_div_iff₀ (by positivity)]
    exact_mod_cast (Nat.mul_le_mul hcount hshare.low : 2 * 2 ^ 23 ≤ count * m)
  have hlt : value (Float32.ofNat count) * value share < 2 ^ 24 := by
    rw [hproduct, div_lt_iff₀ (by positivity)]
    exact_mod_cast (Nat.mul_lt_mul'' (hlimit.trans (by norm_num)) hshare.high :
      count * m < 2 ^ 24 * 2 ^ 24)
  obtain ⟨hfloor, habove⟩ := toNat_mul_bounds hfinite hshare.isFinite hone hlt
  rw [hproduct] at hfloor habove
  constructor
  · have hbelow : ((count * m : ℕ) : ℚ) / 2 ^ 24 < (percentileIndex count share + 1 : ℕ) := by
      refine (Int.lt_floor_add_one _).trans_le ?_
      exact_mod_cast Int.add_le_add_right hfloor 1
    rw [div_lt_iff₀ (by positivity)] at hbelow
    exact_mod_cast hbelow
  · have hscaled : (percentileIndex count share : ℚ) * 2 ^ 47 ≤ (count * m : ℕ) * (2 ^ 23 + 1) := by
      rw [percentileIndex]
      linarith
    exact_mod_cast hscaled

/-- The place at which a percentile of `count` sorted values is looked up. -/
def place (count : ℕ) (share : Float32) : ℕ := min (percentileIndex count share) (count - 1)

/-- Up to the place of a percentile stand no fewer, and before it no more than
the stated parts of a hundred. -/
theorem place_bounds (hshare : IsShare share parts m) (hcount : 2 ≤ count)
    (hlimit : count ≤ historyLimit) :
    parts * count ≤ 100 * (place count share + 1) ∧ 100 * place count share ≤ parts * count := by
  rw [historyLimit] at hlimit
  obtain ⟨hbelow, habove⟩ := percentileIndex_bounds hshare hcount (by omega)
  obtain ⟨-, -, -, hhigh, hparts, hparts'⟩ := hshare
  have hall : parts * count ≤ 100 * count := Nat.mul_le_mul_right count (by omega)
  -- The errors of the share and of the product add up to less than one place.
  have hlow : parts * count * 2 ^ 24 ≤ 100 * (count * m) + 50 * count :=
    calc
      parts * count * 2 ^ 24 = parts * 2 ^ 24 * count := by ring
      _ ≤ (100 * m + 50) * count := Nat.mul_le_mul_right count hparts
      _ = 100 * (count * m) + 50 * count := by ring
  have hnear : 100 * (count * m) ≤ parts * count * 2 ^ 24 + 50 * count :=
    calc
      100 * (count * m) = 100 * m * count := by ring
      _ ≤ (parts * 2 ^ 24 + 50) * count := Nat.mul_le_mul_right count hparts'
      _ = parts * count * 2 ^ 24 + 50 * count := by ring
  have hproduct : count * m ≤ count * 2 ^ 24 := Nat.mul_le_mul_left count hhigh.le
  rw [place]
  constructor <;> omega

/-- A greater share does not have a lower place. -/
theorem place_le_place (hshare : IsShare share parts m) (hshare' : IsShare share' parts' m')
    (hparts : parts < parts') (hcount : 2 ≤ count) (hlimit : count ≤ historyLimit) :
    place count share ≤ place count share' := by
  rw [historyLimit] at hlimit
  obtain ⟨-, habove⟩ := percentileIndex_bounds hshare hcount (by omega)
  obtain ⟨hbelow, -⟩ := percentileIndex_bounds hshare' hcount (by omega)
  have hstep : m + 2 ≤ m' := by
    have hle := hshare.le_parts
    have hle' := hshare'.parts_le
    omega
  have hm : m * (2 ^ 23 + 1) ≤ m' * 2 ^ 23 :=
    calc
      m * (2 ^ 23 + 1) = m * 2 ^ 23 + m := Nat.mul_succ m (2 ^ 23)
      _ ≤ m * 2 ^ 23 + 2 * 2 ^ 23 := Nat.add_le_add_left hshare.high.le _
      _ = (m + 2) * 2 ^ 23 := (Nat.add_mul ..).symm
      _ ≤ m' * 2 ^ 23 := Nat.mul_le_mul_right _ hstep
  have hscaled : count * m * (2 ^ 23 + 1) ≤ count * m' * 2 ^ 23 :=
    calc
      count * m * (2 ^ 23 + 1) = count * (m * (2 ^ 23 + 1)) := Nat.mul_assoc ..
      _ ≤ count * (m' * 2 ^ 23) := Nat.mul_le_mul_left count hm
      _ = count * m' * 2 ^ 23 := (Nat.mul_assoc ..).symm
  have hle : percentileIndex count share ≤ percentileIndex count share' := by omega
  exact min_le_min_right _ hle

/-- The binary32 product of 20 and 0.95 is 19, although the share is rounded to
a smaller number. -/
example : place 20 0.95 = 19 := by decide +kernel

theorem pairwise_mergeSort (values : List UInt64) : values.mergeSort.Pairwise (· ≤ ·) := by
  have hsorted : values.mergeSort.Pairwise fun a b => decide (a ≤ b) = true := by
    apply List.pairwise_mergeSort
    · exact fun _ _ _ hab hbc =>
        decide_eq_true (UInt64.le_trans (of_decide_eq_true hab) (of_decide_eq_true hbc))
    · intro a b
      simpa using UInt64.le_total a b
  exact hsorted.imp of_decide_eq_true

/-- Sorting forgets the order in which the values were recorded. -/
theorem mergeSort_eq_of_perm {left right : List UInt64} (h : left.Perm right) :
    left.mergeSort = right.mergeSort :=
  (((List.mergeSort_perm left _).trans h).trans (List.mergeSort_perm right _).symm).eq_of_pairwise
    (fun _ _ _ _ => UInt64.le_antisymm) (pairwise_mergeSort left) (pairwise_mergeSort right)

variable {sorted : List UInt64} {index other : ℕ} {value value' : UInt64}

theorem le_of_getElem? (hsorted : sorted.Pairwise (· ≤ ·)) (hle : index ≤ other)
    (hvalue : sorted[index]? = some value) (hvalue' : sorted[other]? = some value') :
    value ≤ value' := by
  obtain ⟨hindex, rfl⟩ := List.getElem?_eq_some_iff.mp hvalue
  obtain ⟨hother, rfl⟩ := List.getElem?_eq_some_iff.mp hvalue'
  rcases hle.lt_or_eq with hlt | rfl
  · exact List.pairwise_iff_getElem.mp hsorted index other hindex hother hlt
  · exact UInt64.le_refl _

/-- In a sorted list the values up to a place do not exceed the one that stands
there. -/
theorem lt_countP_of_getElem? (hsorted : sorted.Pairwise (· ≤ ·))
    (hvalue : sorted[index]? = some value) : index < sorted.countP (· ≤ value) := by
  obtain ⟨hindex, -⟩ := List.getElem?_eq_some_iff.mp hvalue
  have hall : (sorted.take (index + 1)).countP (· ≤ value) = (sorted.take (index + 1)).length := by
    rw [List.countP_eq_length]
    intro earlier hearlier
    obtain ⟨place, hplace, rfl⟩ := List.mem_take_iff_getElem.mp hearlier
    exact decide_eq_true
      (le_of_getElem? hsorted (by omega) (List.getElem?_eq_getElem (by omega)) hvalue)
  calc
    index < (sorted.take (index + 1)).length := by rw [List.length_take]; omega
    _ = (sorted.take (index + 1)).countP (· ≤ value) := hall.symm
    _ ≤ sorted.countP (· ≤ value) := (List.take_sublist _ _).countP_le

/-- In a sorted list only values before a place are below the one that stands
there. -/
theorem countP_lt_of_getElem? (hsorted : sorted.Pairwise (· ≤ ·))
    (hvalue : sorted[index]? = some value) : sorted.countP (· < value) ≤ index := by
  have hnone : (sorted.drop index).countP (· < value) = 0 := by
    rw [List.countP_eq_zero]
    intro later hlater
    obtain ⟨place, hplace⟩ := List.mem_iff_getElem?.mp hlater
    rw [List.getElem?_drop] at hplace
    rw [decide_eq_true_eq, UInt64.not_lt]
    exact le_of_getElem? hsorted (Nat.le_add_right index place) hvalue hplace
  calc
    sorted.countP (· < value) = (sorted.take index).countP (· < value) +
        (sorted.drop index).countP (· < value) := by
      rw [← List.countP_append, List.take_append_drop]
    _ ≤ (sorted.take index).length := by
      rw [hnone, Nat.add_zero]
      exact List.countP_le_length
    _ ≤ index := List.length_take_le index sorted

theorem mergeSort_ne_nil {values : List UInt64} (hne : values ≠ []) : values.mergeSort ≠ [] := by
  rw [← List.length_pos_iff, List.length_mergeSort]
  exact List.length_pos_iff.mpr hne

/-! ## What is published -/

/-- A percentile is looked up in range, so it is one of the values.  More values
than its place tells are not above it, and no more are below it. -/
theorem percentile_spec {values : List UInt64} (hne : values ≠ []) (share : Float32) :
    values.mergeSort[place values.length share]? = some (percentile values.mergeSort share) ∧
      percentile values.mergeSort share ∈ values ∧
        place values.length share < values.countP (· ≤ percentile values.mergeSort share) ∧
          values.countP (· < percentile values.mergeSort share) ≤ place values.length share := by
  have hperm := List.mergeSort_perm values (fun a b => a ≤ b)
  have hlength : values.mergeSort.length = values.length := List.length_mergeSort values
  have hpos := List.length_pos_iff.mpr (mergeSort_ne_nil hne)
  have hfound : values.mergeSort[place values.length share]? =
      some (percentile values.mergeSort share) := by
    have hplace : place values.mergeSort.length share < values.mergeSort.length := by
      rw [place]
      omega
    rw [percentile, ← place, ← hlength, List.getElem?_eq_getElem hplace, Option.getD_some]
  refine ⟨hfound, hperm.mem_iff.mp (List.mem_of_getElem? hfound), ?_⟩
  rw [← hperm.countP_eq, ← hperm.countP_eq]
  exact ⟨lt_countP_of_getElem? (pairwise_mergeSort values) hfound,
    countP_lt_of_getElem? (pairwise_mergeSort values) hfound⟩

/-- The last of the sorted values is the greatest. -/
theorem isGreatest_getLast? {values : List UInt64} (hne : values ≠ []) :
    IsGreatest {time | time ∈ values} (values.mergeSort.getLast?.getD 0) := by
  have hperm := List.mergeSort_perm values (fun a b => a ≤ b)
  have hlast : values.mergeSort[values.mergeSort.length - 1]? =
      some (values.mergeSort.getLast?.getD 0) := by
    rw [← List.getLast?_eq_getElem?, List.getLast?_eq_some_getLast (mergeSort_ne_nil hne),
      Option.getD_some]
  constructor
  · exact hperm.mem_iff.mp (List.mem_of_getElem? hlast)
  · intro time htime
    obtain ⟨index, hindex⟩ := List.mem_iff_getElem?.mp (hperm.mem_iff.mpr htime)
    obtain ⟨hlt, -⟩ := List.getElem?_eq_some_iff.mp hindex
    exact le_of_getElem? (pairwise_mergeSort values) (by omega) hindex hlast

/-- What is published of the times in a window. -/
structure Published (window : List UInt64) (p95 p99 greatest : UInt64) : Prop where
  /-- Both look-ups among the sorted times are in range. -/
  p95_found : window.mergeSort[place window.length 0.95]? = some p95
  p99_found : window.mergeSort[place window.length 0.99]? = some p99
  p95_mem : p95 ∈ window
  p99_mem : p99 ∈ window
  isGreatest : IsGreatest {time | time ∈ window} greatest
  p95_le_p99 : p95 ≤ p99
  p99_le_greatest : p99 ≤ greatest
  p95_covers : 95 * window.length ≤ 100 * window.countP (· ≤ p95)
  p99_covers : 99 * window.length ≤ 100 * window.countP (· ≤ p99)
  /-- No more than the stated share of the times is below a percentile. -/
  below_p95 : 100 * window.countP (· < p95) ≤ 95 * window.length
  below_p99 : 100 * window.countP (· < p99) ≤ 99 * window.length

/-- Percentiles do not depend on the order in which the times were recorded. -/
theorem Published.eq_of_perm {window window' : List UInt64}
    {p95 p99 greatest p95' p99' greatest' : UInt64} (h : Published window p95 p99 greatest)
    (h' : Published window' p95' p99' greatest') (hperm : window.Perm window') :
    p95 = p95' ∧ p99 = p99' := by
  have hsorted := mergeSort_eq_of_perm hperm
  have hlength := hperm.length_eq
  constructor
  · rw [← Option.some_inj, ← h.p95_found, ← h'.p95_found, hsorted, hlength]
  · rw [← Option.some_inj, ← h.p99_found, ← h'.p99_found, hsorted, hlength]

theorem publish_of_le {metrics : Metrics} (hten : percentileMinimum ≤ metrics.history.length) :
    metrics.publish =
      { metrics with
        tickTimeP95 := percentile metrics.history.mergeSort 0.95
        tickTimeP99 := percentile metrics.history.mergeSort 0.99
        tickTimeMax := metrics.history.mergeSort.getLast?.getD 0 } :=
  if_pos hten

theorem publish_of_lt {metrics : Metrics} (hfew : metrics.history.length < percentileMinimum) :
    metrics.publish = metrics :=
  if_neg hfew.not_ge

@[simp]
theorem publish_history (metrics : Metrics) : metrics.publish.history = metrics.history := by
  rw [publish]
  split_ifs <;> rfl

@[simp]
theorem publish_tickCount (metrics : Metrics) : metrics.publish.tickCount = metrics.tickCount := by
  rw [publish]
  split_ifs <;> rfl

@[simp]
theorem publish_tickTime (metrics : Metrics) : metrics.publish.tickTime = metrics.tickTime := by
  rw [publish]
  split_ifs <;> rfl

/-- What is published of at least ten and at most a thousand times. -/
theorem published_publish {metrics : Metrics} (hten : percentileMinimum ≤ metrics.history.length)
    (hlimit : metrics.history.length ≤ historyLimit) :
    Published metrics.history metrics.publish.tickTimeP95 metrics.publish.tickTimeP99
      metrics.publish.tickTimeMax := by
  rw [publish_of_le hten]
  have htwo : 2 ≤ metrics.history.length := le_trans (by decide) hten
  have hne : metrics.history ≠ [] := List.length_pos_iff.mp (zero_lt_two.trans_le htwo)
  obtain ⟨hfound95, hmem95, hcovered95, hbelow95⟩ := percentile_spec hne 0.95
  obtain ⟨hfound99, hmem99, hcovered99, hbelow99⟩ := percentile_spec hne 0.99
  obtain ⟨hlow95, hhigh95⟩ := place_bounds isShare_p95 htwo hlimit
  obtain ⟨hlow99, hhigh99⟩ := place_bounds isShare_p99 htwo hlimit
  have hplaces := place_le_place isShare_p95 isShare_p99 (by decide) htwo hlimit
  have hgreatest := isGreatest_getLast? hne
  exact
    { p95_found := hfound95
      p99_found := hfound99
      p95_mem := hmem95
      p99_mem := hmem99
      isGreatest := hgreatest
      p95_le_p99 := le_of_getElem? (pairwise_mergeSort metrics.history) hplaces hfound95 hfound99
      p99_le_greatest := hgreatest.2 hmem99
      p95_covers := hlow95.trans (Nat.mul_le_mul_left 100 hcovered95)
      p99_covers := hlow99.trans (Nat.mul_le_mul_left 100 hcovered99)
      below_p95 := (Nat.mul_le_mul_left 100 hbelow95).trans hhigh95
      below_p99 := (Nat.mul_le_mul_left 100 hbelow99).trans hhigh99 }

inductive Recording where
  | tickTime (time : Duration)
  | advance (time : Duration) (report : AdvanceReport)
  | population (sessions players : ℕ)
  | request
  | requestError (internal : Bool)
  | join

def Recording.time? : Recording → Option Duration
  | .tickTime time | .advance time _ => some time
  | .population _ _ | .request | .requestError _ | .join => none

def record (metrics : Metrics) : Recording → Metrics
  | .tickTime time => metrics.recordTickTime time
  | .advance time report => metrics.recordAdvance time report
  | .population sessions players => metrics.setPopulation sessions players
  | .request => metrics.recordRequest
  | .requestError internal => metrics.recordRequestError internal
  | .join => metrics.recordJoin

def after (recordings : List Recording) : Metrics := recordings.foldl record {}

/-- What the metrics say about ticks that took the given times in microseconds. -/
structure Ticked (times : List UInt64) (metrics : Metrics) : Prop where
  history : metrics.history = times.rtake historyLimit
  tickCount : metrics.tickCount = .ofNat times.length
  tickTime : metrics.tickTime = times.getLast?.getD 0
  published : percentileMinimum ≤ times.length →
    Published metrics.history metrics.tickTimeP95 metrics.tickTimeP99 metrics.tickTimeMax
  unpublished : times.length < percentileMinimum →
    metrics.tickTimeP95 = 0 ∧ metrics.tickTimeP99 = 0 ∧ metrics.tickTimeMax = 0

/-- What the metrics say about ticks is in these fields alone. -/
theorem Ticked.of_eq {times : List UInt64} {metrics next : Metrics} (h : Ticked times metrics)
    (hhistory : next.history = metrics.history) (hcount : next.tickCount = metrics.tickCount)
    (htime : next.tickTime = metrics.tickTime) (hp95 : next.tickTimeP95 = metrics.tickTimeP95)
    (hp99 : next.tickTimeP99 = metrics.tickTimeP99)
    (hmax : next.tickTimeMax = metrics.tickTimeMax) : Ticked times next := by
  constructor
  · rw [hhistory, h.history]
  · rw [hcount, h.tickCount]
  · rw [htime, h.tickTime]
  · rw [hhistory, hp95, hp99, hmax]
    exact h.published
  · rw [hp95, hp99, hmax]
    exact h.unpublished

theorem length_latest (times : List UInt64) :
    (times.rtake historyLimit).length = min times.length historyLimit := by
  rw [List.rtake, List.length_drop, Nat.sub_sub_eq_min]

/-- The latest times with one more are the latest of all times. -/
theorem remember_rtake (times : List UInt64) (time : UInt64) :
    remember (times.rtake historyLimit) time = (times ++ [time]).rtake historyLimit := by
  simp only [remember, List.rtake, List.length_append, List.length_drop, List.length_singleton]
  generalize historyLimit = limit
  rw [← List.drop_append_of_le_length (by omega), List.drop_drop]
  congr 1
  omega

theorem Ticked.recordTickTime {times : List UInt64} {metrics : Metrics} (h : Ticked times metrics)
    (time : Duration) :
    Ticked (times ++ [time.inMicroseconds]) (metrics.recordTickTime time) := by
  have hhistory : remember metrics.history time.inMicroseconds =
      (times ++ [time.inMicroseconds]).rtake historyLimit := by
    rw [h.history, remember_rtake]
  have hlength : (remember metrics.history time.inMicroseconds).length =
      min (times ++ [time.inMicroseconds]).length historyLimit := by
    rw [hhistory, length_latest]
  have hminimum : percentileMinimum ≤ historyLimit := by decide
  rw [Metrics.recordTickTime]
  constructor
  · rw [publish_history, hhistory]
  · rw [publish_tickCount, h.tickCount, List.length_append, UInt64.ofNat_add]
    rfl
  · rw [publish_tickTime, List.getLast?_concat, Option.getD_some]
  · intro hten
    rw [publish_history]
    apply published_publish
    · rw [hlength]
      exact le_min hten hminimum
    · rw [hlength]
      exact min_le_right _ _
  · intro hfew
    rw [publish_of_lt (by rw [hlength]; exact (min_le_left _ _).trans_lt hfew)]
    rw [List.length_append] at hfew
    exact h.unpublished (by omega)

/-- Every recording keeps account of the times of ticks. -/
theorem Ticked.record {times : List UInt64} {metrics : Metrics} (h : Ticked times metrics)
    (recording : Recording) :
    Ticked (times ++ (recording.time?.map (·.inMicroseconds)).toList)
      (metrics.record recording) := by
  cases recording with
  | tickTime time => exact h.recordTickTime time
  | advance time report =>
      have hticked := h.recordTickTime time
      rw [Metrics.record, recordAdvance]
      generalize metrics.recordTickTime time = ticked at hticked
      exact hticked.of_eq rfl rfl rfl rfl rfl rfl
  | population _ _ | request | requestError _ | join =>
      rw [Recording.time?, Option.map_none, Option.toList_none, List.append_nil]
      exact h.of_eq rfl rfl rfl rfl rfl rfl

theorem Ticked.length_history {times : List UInt64} {metrics : Metrics}
    (h : Ticked times metrics) : metrics.history.length = min times.length historyLimit := by
  rw [h.history, length_latest]

/-- Two runs that keep the same times in any order publish the same percentiles. -/
theorem Ticked.eq_of_perm {times times' : List UInt64} {metrics metrics' : Metrics}
    (h : Ticked times metrics) (h' : Ticked times' metrics')
    (hperm : metrics'.history.Perm metrics.history) :
    metrics'.tickTimeP95 = metrics.tickTimeP95 ∧ metrics'.tickTimeP99 = metrics.tickTimeP99 := by
  have hlength := hperm.length_eq
  rw [h.length_history, h'.length_history, historyLimit] at hlength
  by_cases hten : percentileMinimum ≤ times.length
  · have hten' : percentileMinimum ≤ times'.length := by
      rw [percentileMinimum] at hten ⊢
      omega
    exact (h'.published hten').eq_of_perm (h.published hten) hperm
  · have hfew : times'.length < percentileMinimum := by
      rw [percentileMinimum] at hten ⊢
      omega
    obtain ⟨hp95, hp99, -⟩ := h.unpublished (Nat.lt_of_not_le hten)
    obtain ⟨hp95', hp99', -⟩ := h'.unpublished hfew
    exact ⟨hp95'.trans hp95.symm, hp99'.trans hp99.symm⟩

def tickTimes (recordings : List Recording) : List Duration := recordings.filterMap Recording.time?

/-- The metrics after any recordings keep account of all ticks among them. -/
theorem ticked_after (recordings : List Recording) :
    Ticked ((tickTimes recordings).map (·.inMicroseconds)) (after recordings) := by
  induction recordings using List.reverseRecOn with
  | nil => exact ⟨rfl, rfl, rfl, fun h => absurd h (by decide), fun _ => ⟨rfl, rfl, rfl⟩⟩
  | append_singleton recordings recording ih =>
      have hlast : tickTimes [recording] = recording.time?.toList := by
        rw [tickTimes, List.filterMap_cons]
        cases recording.time? <;> rfl
      have hnext := ih.record recording
      rw [Option.toList_map, ← hlast, ← List.map_append, tickTimes, tickTimes,
        ← List.filterMap_append] at hnext
      rwa [after, List.foldl_append]

/-- What the metrics say about ticks that took the given numbers of
microseconds. -/
structure Statistics (times : List ℕ) (metrics : Metrics) : Prop where
  /-- The latest thousand times are kept in order. -/
  history : metrics.history.map (·.toNat) = times.rtake 1000
  tickCount : metrics.tickCount.toNat = times.length % 2 ^ 64
  tickTime : metrics.tickTime.toNat = times.getLast?.getD 0
  published : 10 ≤ times.length →
    Published metrics.history metrics.tickTimeP95 metrics.tickTimeP99 metrics.tickTimeMax
  unpublished : times.length < 10 →
    metrics.tickTimeP95 = 0 ∧ metrics.tickTimeP99 = 0 ∧ metrics.tickTimeMax = 0
  /-- Other recordings that keep the same times in any order lead to the same
  percentiles. -/
  unordered : ∀ others, (after others).history.Perm metrics.history →
    (after others).tickTimeP95 = metrics.tickTimeP95 ∧
      (after others).tickTimeP99 = metrics.tickTimeP99

/-- The metrics keep the times of the latest ticks and publish their greatest
and two percentiles, whatever else is recorded in between. -/
theorem statistics_after (recordings : List Recording)
    (hfit : ∀ time ∈ tickTimes recordings, time.nanoseconds / 1000 < 2 ^ 64) :
    Statistics ((tickTimes recordings).map (·.nanoseconds / 1000)) (after recordings) := by
  have hticked := ticked_after recordings
  have hnumbers : ((tickTimes recordings).map (·.inMicroseconds)).map (·.toNat) =
      (tickTimes recordings).map (·.nanoseconds / 1000) := by
    rw [List.map_map]
    apply List.map_congr_left
    intro time htime
    rw [Function.comp_apply, Duration.inMicroseconds, Nat.toUInt64, UInt64.toNat_ofNat',
      Nat.mod_eq_of_lt (hfit time htime)]
  rw [← hnumbers]
  generalize (tickTimes recordings).map (·.inMicroseconds) = times at hticked
  constructor
  · rw [hticked.history, historyLimit, List.rtake, List.rtake, List.map_drop, List.length_map]
  · rw [hticked.tickCount, UInt64.toNat_ofNat', List.length_map]
  · rw [hticked.tickTime, List.getLast?_map]
    cases times.getLast? <;> rfl
  · rw [List.length_map]
    exact hticked.published
  · rw [List.length_map]
    exact hticked.unpublished
  · exact fun others hperm => hticked.eq_of_perm (ticked_after others) hperm

/-- Twelve ticks, the first of them while a player joins. -/
def twelveTicks : List Recording :=
  [.request, .advance ⟨4200⟩ ⟨0, 0⟩, .join, .population 1 1, .request, .requestError false] ++
    (List.range 11).map fun index => .tickTime ⟨(index * 7 % 11) * 1000000⟩

theorem statistics_after_twelveTicks :
    (∀ time ∈ tickTimes twelveTicks, time.nanoseconds / 1000 < 2 ^ 64) ∧
      Statistics ((tickTimes twelveTicks).map (·.nanoseconds / 1000)) (after twelveTicks) :=
  have hfit : ∀ time ∈ tickTimes twelveTicks, time.nanoseconds / 1000 < 2 ^ 64 := by decide
  ⟨hfit, statistics_after twelveTicks hfit⟩

end StreetDogs.Metrics
