import Gic.Proofs.LinearSearch

/-!
# Validation is exact

A configuration is checked before a board is built for it. When the regions of
its windows are made, and when they are put on the map, the same facts are
looked at again: a window that reaches past the last address would be left out,
and one that overlaps with another would be refused. This module shows which
configurations pass the first check, which error any other one is refused with,
and that nothing is left for the later checks to find.

## The model

* `Config.Buildable` — what a configuration has to be like.
* `Config.Incompatible` — two windows that cannot both be mapped.
* `Config.FirstClash` — the first two such windows.
* `Config.Rejected` — the configurations that are refused with an error.
* `MemoryMap.HasWindows` — a map has the four windows on it, and nothing else.

## What is proved

* `Config.clash_iff_incompatible` — the comparison of two windows by their ends
  is right for any base addresses.
* `Config.find?_windowPairs_iff` — the comparisons are made in the order of the
  windows.
* `Config.validate_eq_ok_iff`, `Config.validate_eq_error_iff` — what validation
  accepts, and how it refuses the rest.
* `Board.validation_is_exact` — a board is built if and only if the
  configuration is valid, with all of its windows.
-/

namespace Gic

/-- The first element of a list in ascending order that passes a test is the least one. -/
theorem find?_eq_some_iff_of_ascending {α : Type} {lt : α → α → Prop} {p : α → Bool}
    {items : List α} (asymm : ∀ a b, lt a b → ¬ lt b a) (h : items.Pairwise lt) {a : α} :
    items.find? p = some a ↔ a ∈ items ∧ p a = true ∧ ∀ b ∈ items, lt b a → p b = false := by
  constructor
  · intro hfind
    obtain ⟨hp, before, after, rfl, hbefore⟩ := List.find?_eq_some_iff_append.mp hfind
    refine ⟨List.mem_append_right _ (List.mem_cons_self ..), hp, fun b hb hlt => ?_⟩
    obtain hb | hb := List.mem_append.mp hb
    · simpa using hbefore b hb
    · obtain ⟨-, hafter, -⟩ := List.pairwise_append.mp h
      -- What stands after the element is not before it in the order.
      obtain rfl | hb := List.mem_cons.mp hb
      · exact absurd hlt (asymm _ _ hlt)
      · exact absurd hlt (asymm _ _ (List.rel_of_pairwise_cons hafter hb))
  · rintro ⟨ha, hp, hleast⟩
    obtain ⟨before, after, rfl⟩ := List.append_of_mem ha
    refine List.find?_eq_some_iff_append.mpr ⟨hp, before, after, rfl, fun b hb => ?_⟩
    obtain ⟨-, -, hlt⟩ := List.pairwise_append.mp h
    rw [hleast b (List.mem_append_left _ hb) (hlt b hb a (List.mem_cons_self ..))]
    rfl

theorem Interface.windowSize_pos (window : Interface) : 0 < window.windowSize := by
  cases window <;> decide

namespace Config

/-! ### What validation looks for -/

/-- A configuration for which a board can be built. -/
structure Buildable (cfg : Config) : Prop where
  /-- A CPU is connected. -/
  some_cpu : 0 < cfg.cpus
  /-- Every CPU can be served. -/
  cpus : cfg.cpus ≤ maxCpus
  /-- Every shared input can be served. -/
  spis : cfg.spis ≤ maxSpis
  /-- The address after each window exists. -/
  ends : ∀ window, cfg.stop window ≤ addressSpace - 1
  /-- No address lies in two windows. -/
  apart : ∀ a b address, cfg.Holds a address → cfg.Holds b address → a = b

/-- Two windows that cannot both be mapped: an address lies in both of them, or one of them reaches
past the last address. -/
def Incompatible (cfg : Config) (a b : Interface) : Prop :=
  (∃ address, cfg.Holds a address ∧ cfg.Holds b address) ∨
    addressSpace ≤ cfg.stop a ∨ addressSpace ≤ cfg.stop b

/-- Pairs of windows in the order in which they are listed, by the first one and then by the
second. -/
def PairBefore (pair other : Interface × Interface) : Prop :=
  pair.1.index < other.1.index ∨
    (pair.1.index = other.1.index ∧ pair.2.index < other.2.index)

instance (pair other : Interface × Interface) : Decidable (PairBefore pair other) :=
  inferInstanceAs (Decidable (_ ∨ _))

/-- Two windows cannot both be mapped, and all pairs before them can. -/
structure FirstClash (cfg : Config) (a b : Interface) : Prop where
  /-- They are listed in this order. -/
  ordered : a.index < b.index
  /-- They cannot both be mapped. -/
  clashes : cfg.Incompatible a b
  /-- Any two windows before them can. -/
  earlier : ∀ a' b', a'.index < b'.index → PairBefore (a', b') (a, b) → ¬ cfg.Incompatible a' b'

/-- The error that a configuration is refused with. -/
inductive Rejected (cfg : Config) : ConfigError → Prop where
  /-- No CPU is connected. -/
  | noCpus (h : cfg.cpus = 0) : Rejected cfg .noCpus
  /-- Too many CPUs are connected. -/
  | tooManyCpus (h : maxCpus < cfg.cpus) : Rejected cfg (.tooManyCpus cfg.cpus)
  /-- The CPUs can be served, but too many shared inputs are connected. -/
  | tooManyInterrupts (hpos : 0 < cfg.cpus) (hcpus : cfg.cpus ≤ maxCpus)
      (h : maxSpis < cfg.spis) : Rejected cfg (.tooManyInterrupts (numPrivate + cfg.spis))
  /-- CPUs and inputs can be served, but the windows cannot be mapped. -/
  | overlap {a b : Interface} (hpos : 0 < cfg.cpus) (hcpus : cfg.cpus ≤ maxCpus)
      (hspis : cfg.spis ≤ maxSpis) (h : cfg.FirstClash a b) : Rejected cfg (.overlap a b)

variable {cfg : Config}

theorem clash_iff_incompatible (a b : Interface) :
    cfg.clash a b = true ↔ cfg.Incompatible a b := by
  have ha := a.windowSize_pos
  have hb := b.windowSize_pos
  simp only [clash, Incompatible, Holds, Bool.or_eq_true, Bool.and_eq_true, decide_eq_true_eq]
  constructor
  · rintro ((hstop | hstop) | ⟨hab, hba⟩)
    · exact .inr (.inl hstop)
    · exact .inr (.inr hstop)
    · -- The later one of the two base addresses lies in both.
      rw [stop] at hab hba ⊢
      exact .inl ⟨max (cfg.base a) (cfg.base b), by omega, by rw [stop]; omega⟩
  · rintro (⟨address, ⟨hastart, hastop⟩, hbstart, hbstop⟩ | hstop | hstop)
    · exact .inr ⟨by omega, by omega⟩
    · exact .inl (.inl hstop)
    · exact .inl (.inr hstop)

theorem mem_windowPairs (a b : Interface) : (a, b) ∈ windowPairs ↔ a.index < b.index := by
  cases a <;> cases b <;> decide

theorem pairwise_windowPairs : windowPairs.Pairwise PairBefore := by decide

theorem PairBefore.asymm (pair other : Interface × Interface) (h : PairBefore pair other) :
    ¬ PairBefore other pair := by
  unfold PairBefore at *
  omega

/-- The pair that the comparisons stop at is the first one that cannot be mapped. -/
theorem find?_windowPairs_iff (a b : Interface) :
    (windowPairs.find? fun pair => cfg.clash pair.1 pair.2) = some (a, b) ↔
      cfg.FirstClash a b := by
  rw [find?_eq_some_iff_of_ascending PairBefore.asymm pairwise_windowPairs, mem_windowPairs,
    clash_iff_incompatible]
  constructor
  · rintro ⟨hordered, hclash, hearlier⟩
    refine ⟨hordered, hclash, fun a' b' hordered' hbefore hclash' => ?_⟩
    have hfalse := hearlier (a', b') ((mem_windowPairs a' b').mpr hordered') hbefore
    cases hfalse.symm.trans ((clash_iff_incompatible a' b').mpr hclash')
  · rintro ⟨hordered, hclash, hearlier⟩
    refine ⟨hordered, hclash, fun ⟨a', b'⟩ hmem hbefore => Bool.eq_false_iff.mpr fun hclash' => ?_⟩
    exact hearlier a' b' ((mem_windowPairs a' b').mp hmem) hbefore
      ((clash_iff_incompatible a' b').mp hclash')

/-! ### What validation finds -/

theorem buildable_of_validate (h : cfg.validate = .ok ()) : cfg.Buildable where
  some_cpu := (bounds_of_validate h).1
  cpus := (bounds_of_validate h).2.1
  spis := by
    have hirqs := (bounds_of_validate h).2.2
    simp only [numIrqs, numPrivate, maxIrqs, maxSpis] at *
    omega
  ends window := Nat.le_sub_one_of_lt (stop_lt_of_validate h window)
  apart _ _ _ := holds_unique h

/-- No windows clash in a configuration for which a board can be built. -/
theorem Buildable.not_firstClash (h : cfg.Buildable) (a b : Interface) :
    ¬ cfg.FirstClash a b := by
  have hspace : 0 < addressSpace := by decide
  rintro ⟨hordered, ⟨address, ha, hb⟩ | hstop | hstop, -⟩
  · obtain rfl := h.apart a b address ha hb
    exact Nat.lt_irrefl _ hordered
  · have := h.ends a
    omega
  · have := h.ends b
    omega

/-- A configuration is refused with the error that the checks come to first. -/
theorem validate_eq_error_iff (e : ConfigError) :
    cfg.validate = .error e ↔ cfg.Rejected e := by
  constructor
  · intro h
    unfold validate at h
    split at h
    · rename_i hcpus
      cases h
      exact .noCpus hcpus
    · rename_i hsome
      have hpos : 0 < cfg.cpus := Nat.pos_of_ne_zero hsome
      split at h
      · rename_i hmany
        cases h
        exact .tooManyCpus hmany
      · rename_i hcpus
        have hcpus : cfg.cpus ≤ maxCpus := Nat.le_of_not_lt hcpus
        split at h
        · rename_i hmany
          cases h
          exact .tooManyInterrupts hpos hcpus hmany
        · rename_i hspis
          split at h
          · rename_i a b hfind
            cases h
            have hspis : cfg.spis ≤ maxSpis := Nat.le_of_not_lt hspis
            exact .overlap hpos hcpus hspis ((find?_windowPairs_iff a b).mp hfind)
          · cases h
  · intro h
    unfold validate
    cases h with
    | noCpus hcpus => rw [if_pos hcpus]
    | tooManyCpus hmany =>
      have hsome : cfg.cpus ≠ 0 := by omega
      rw [if_neg hsome, if_pos hmany]
    | tooManyInterrupts hpos hcpus hmany =>
      rw [if_neg (Nat.ne_of_gt hpos), if_neg (Nat.not_lt.mpr hcpus), if_pos hmany, numIrqs]
    | overlap hpos hcpus hspis hclash =>
      rw [if_neg (Nat.ne_of_gt hpos), if_neg (Nat.not_lt.mpr hcpus), if_neg (Nat.not_lt.mpr hspis),
        (find?_windowPairs_iff _ _).mpr hclash]

theorem Buildable.not_rejected (h : cfg.Buildable) (e : ConfigError) : ¬ cfg.Rejected e := by
  have hpos := h.some_cpu
  have hcpus := h.cpus
  have hspis := h.spis
  intro hrejected
  cases hrejected with
  | noCpus hnone => omega
  | tooManyCpus hmany => omega
  | tooManyInterrupts _ _ hmany => omega
  | overlap _ _ _ hclash => exact h.not_firstClash _ _ hclash

/-- Validation accepts a configuration if and only if a board can be built for it. -/
theorem validate_eq_ok_iff : cfg.validate = .ok () ↔ cfg.Buildable := by
  refine ⟨buildable_of_validate, fun h => ?_⟩
  cases hvalidate : cfg.validate with
  | ok => rfl
  | error e => exact absurd ((validate_eq_error_iff e).mp hvalidate) (h.not_rejected e)

end Config

/-! ### The windows on the map -/

/-- A map has the windows of a configuration on it, each once and in ascending order, and nothing
else. -/
structure MemoryMap.HasWindows (m : MemoryMap Interface) (cfg : Config) : Prop where
  /-- There are four regions. -/
  four : m.regions.size = 4
  /-- They are those of the four windows. -/
  windows : (m.regions.toList.map Region.device).Perm Interface.all
  /-- Every region is its window. -/
  placed : ∀ r ∈ m.regions,
    r.start = cfg.base r.device ∧ r.size.bytes = r.device.windowSize
  /-- Every region ends before the next one starts. -/
  ordered : m.Ordered

namespace Board

variable {cfg : Config}

/-- No window of a valid configuration is left out. -/
theorem map_device_windowRegions (h : cfg.validate = .ok ()) :
    (windowRegions cfg).map Region.device = Interface.all := by
  have hdevice : ∀ window : Interface,
      ((Region.make (cfg.base window) window.windowSize window).toOption.map Region.device) =
        some window := by
    intro window
    obtain ⟨r, hmake, -, -, hdevice⟩ := Region.make_window h window
    rw [hmake]
    exact congrArg some hdevice
  rw [windowRegions, List.map_filterMap]
  simp only [hdevice, List.filterMap_some]

/-- The windows of a valid configuration are all accepted. -/
theorem accepted_windowRegions (h : cfg.validate = .ok ()) :
    MemoryMap.accepted (windowRegions cfg) = windowRegions cfg := by
  refine MemoryMap.accepted_of_pairwise ((pairwise_windowRegions h).imp fun hmeets => ?_)
  exact (Extent.meets_eq_false_iff_not_shares _ _).mp hmeets

theorem keeps_windowRegions (h : cfg.validate = .ok ()) {m : MemoryMap Interface}
    (hadd : MemoryMap.empty.addAll (windowRegions cfg) = .ok m) : m.Keeps (windowRegions cfg) := by
  obtain ⟨-, rfl⟩ := MemoryMap.addAll_eq_ok_iff.mp hadd
  have hkeeps := MemoryMap.keeps_offerAll (windowRegions cfg)
  rwa [accepted_windowRegions h] at hkeeps

theorem hasWindows_of_keeps (h : cfg.validate = .ok ()) {m : MemoryMap Interface}
    (hkeeps : m.Keeps (windowRegions cfg)) : m.HasWindows cfg := by
  have hwindows := hkeeps.regions.map Region.device
  rw [map_device_windowRegions h] at hwindows
  refine ⟨?_, hwindows, fun r hr => ?_, hkeeps.ordered⟩
  · have hlength := hwindows.length_eq
    rwa [List.length_map, Array.length_toList] at hlength
  · obtain ⟨hstart, hstop⟩ := mem_windowRegions h ((hkeeps.mem_iff r).mp hr)
    refine ⟨hstart, ?_⟩
    rw [Extent.stop, Config.stop, hstart] at hstop
    exact Nat.add_left_cancel hstop

/-- A board that is built has all windows on its map. None of them was left out and none was
refused. -/
structure Complete (b : Board cfg) : Prop where
  /-- A region can be made of every window. -/
  made : ∀ window, ∃ r, Region.make (cfg.base window) window.windowSize window = .ok r ∧
    r ∈ b.map.regions
  /-- All regions are added to the map. -/
  added : MemoryMap.empty.addAll (windowRegions cfg) = .ok b.map
  /-- The map has the windows on it, and nothing else. -/
  windows : b.map.HasWindows cfg

theorem addAll_of_build {b : Board cfg} (h : build cfg = .ok b) :
    MemoryMap.empty.addAll (windowRegions cfg) = .ok b.map := by
  unfold build at h
  split at h
  · cases h
  · split at h
    · cases h
    · rename_i m hadd
      rw [← Except.ok.inj h]
      exact hadd

theorem complete_of_build {b : Board cfg} (h : build cfg = .ok b) : b.Complete := by
  have hvalid := validate_of_build h
  have hadd := addAll_of_build h
  have hkeeps := keeps_windowRegions hvalid hadd
  refine ⟨fun window => ?_, hadd, hasWindows_of_keeps hvalid hkeeps⟩
  obtain ⟨r, hmake, -⟩ := Region.make_window hvalid window
  have hmem : r ∈ windowRegions cfg :=
    List.mem_filterMap.mpr ⟨window, by cases window <;> decide, by rw [hmake]; rfl⟩
  exact ⟨r, hmake, (hkeeps.mem_iff r).mpr hmem⟩

/-- A board cannot be built if and only if validation fails. The error is the same. -/
theorem build_eq_error_iff (e : BoardError) :
    build cfg = .error e ↔ ∃ error, cfg.validate = .error error ∧ e = .config error := by
  cases hvalid : cfg.validate with
  | ok =>
    obtain ⟨m, -, hbuild⟩ := build_of_valid hvalid
    constructor
    · intro h
      cases hbuild.symm.trans h
    · rintro ⟨error, herror, -⟩
      cases herror
  | error error =>
    have hbuild : build cfg = .error (.config error) := by rw [build, hvalid]
    rw [hbuild]
    constructor
    · intro h
      exact ⟨error, rfl, (Except.error.inj h).symm⟩
    · rintro ⟨error', herror, rfl⟩
      rw [Except.error.inj herror]

/-- Validation accepts what a board can be built for, and refuses the rest with the error that it
comes to first. Building a board succeeds if and only if validation does, with all windows on the
map, and fails with the same error. -/
theorem validation_is_exact (cfg : Config) :
    (cfg.validate = .ok () ↔ cfg.Buildable) ∧
      (∀ e, cfg.validate = .error e ↔ cfg.Rejected e) ∧
      ((∃ b, build cfg = .ok b ∧ b.Complete) ↔ cfg.validate = .ok ()) ∧
      ∀ e, build cfg = .error e ↔ ∃ error, cfg.validate = .error error ∧ e = .config error := by
  refine ⟨Config.validate_eq_ok_iff, Config.validate_eq_error_iff, ⟨?_, fun h => ?_⟩,
    build_eq_error_iff⟩
  · rintro ⟨b, hbuild, -⟩
    exact validate_of_build hbuild
  · obtain ⟨m, -, hbuild⟩ := build_of_valid h
    exact ⟨_, hbuild, complete_of_build hbuild⟩

end Board

end Gic
