import Gic.Board

/-!
# Which window an address is decoded to

The windows of a valid configuration are regions that do not meet. They are
added to the map in the order in which they are listed, kept in ascending order,
and found by halving. This module shows that whatever the base addresses are, an
address is decoded to the window that holds it.

## The model

* `MemoryMap.Ordered` — every region ends before the next one starts.
* `Config.Holds` — an address lies in a window.
* `MemoryMap.Serves` — a map has the windows of a configuration on it, and
  nothing else.

## What is proved

* `MemoryMap.partitionPoint_spec` — halving finds the place where ascending keys
  begin to exceed a bound.
* `MemoryMap.find?_eq_some_iff` — in a map in order, the region that is found is
  the one that contains the address.
* `Board.build_of_valid` — a board can be built for every valid configuration, and its
  map serves the windows.
* `MemoryMap.Serves.find?_of_holds`, `MemoryMap.Serves.find?_of_not_holds` — an
  address is decoded to the window that holds it.
-/

namespace Gic

/-! ### Extents -/

namespace Extent

theorem start_lt_stop (e : Extent) : e.start < e.stop :=
  Nat.lt_add_of_pos_right e.size.pos

theorem contains_iff (e : Extent) (address : Nat) :
    e.contains address = true ↔ e.start ≤ address ∧ address < e.stop := by
  rw [contains, Bool.and_eq_true, decide_eq_true_eq, decide_eq_true_eq]

/-- Extents that do not meet lie one after the other. -/
theorem meets_eq_false_iff (a b : Extent) :
    a.meets b = false ↔ b.stop ≤ a.start ∨ a.stop ≤ b.start := by
  rw [meets, Bool.and_eq_false_iff, decide_eq_false_iff_not, decide_eq_false_iff_not,
    Nat.not_lt, Nat.not_lt]

end Extent

namespace MemoryMap

variable {δ : Type}

/-! ### Regions in order -/

/-- Every region ends before the next one starts. -/
def Ordered (m : MemoryMap δ) : Prop := m.regions.toList.Pairwise fun a b => a.stop ≤ b.start

theorem mem_insert {r s : Region δ} {regions : List (Region δ)} :
    s ∈ insert r regions ↔ s = r ∨ s ∈ regions := by
  induction regions with
  | nil => rw [insert, List.mem_singleton, or_iff_left List.not_mem_nil]
  | cons first rest ih =>
    rw [insert]
    split
    · rw [List.mem_cons]
    · rw [List.mem_cons, ih, List.mem_cons, or_left_comm]

/-- A region that meets none of the others has its place among them. -/
theorem pairwise_insert {r : Region δ} {regions : List (Region δ)}
    (hmeets : ∀ s ∈ regions, s.meets r.toExtent = false)
    (h : regions.Pairwise fun a b => a.stop ≤ b.start) :
    (insert r regions).Pairwise fun a b => a.stop ≤ b.start := by
  induction regions with
  | nil => exact List.pairwise_singleton _ _
  | cons first rest ih =>
    obtain ⟨hfirst, hrest⟩ := List.pairwise_cons.mp h
    obtain ⟨hmeet, hmeets⟩ := List.forall_mem_cons.mp hmeets
    have hsize := first.start_lt_stop
    have hsize' := r.start_lt_stop
    rw [Extent.meets_eq_false_iff] at hmeet
    rw [insert]
    split
    · refine List.pairwise_cons.mpr ⟨List.forall_mem_cons.mpr ⟨by omega, fun s hs => ?_⟩, h⟩
      have hs := hfirst s hs
      omega
    · refine List.pairwise_cons.mpr ⟨fun s hs => ?_, ih hmeets hrest⟩
      obtain rfl | hs := mem_insert.mp hs
      · omega
      · exact hfirst s hs

/-- A region that meets none of the others can be added. -/
theorem add_of_not_meets {m : MemoryMap δ} {r : Region δ}
    (h : ∀ s ∈ m.regions, s.meets r.toExtent = false) :
    m.add r = .ok ⟨(insert r m.regions.toList).toArray⟩ := by
  have hnone : m.meeting r.toExtent = [] := by
    rw [meeting, List.filter_eq_nil_iff]
    intro e he
    obtain ⟨s, hs, rfl⟩ := List.mem_map.mp he
    rw [Bool.not_eq_true]
    exact h s (Array.mem_toList_iff.mp hs)
  rw [add, hnone]

/-- Regions of which no two meet can be added one after the other. The map stays in order. -/
theorem addAll_of_not_meets {m : MemoryMap δ} (hm : m.Ordered) {added : List (Region δ)}
    (hmap : ∀ r ∈ added, ∀ s ∈ m.regions, s.meets r.toExtent = false)
    (h : added.Pairwise fun a b => a.meets b.toExtent = false) :
    ∃ m', m.addAll added = .ok m' ∧ m'.Ordered ∧
      ∀ r, r ∈ m'.regions ↔ r ∈ m.regions ∨ r ∈ added := by
  induction added generalizing m with
  | nil => exact ⟨m, rfl, hm, fun r => (or_iff_left List.not_mem_nil).symm⟩
  | cons first rest ih =>
    obtain ⟨hfirst, hrest⟩ := List.pairwise_cons.mp h
    obtain ⟨hmapFirst, hmapRest⟩ := List.forall_mem_cons.mp hmap
    let next : MemoryMap δ := ⟨(insert first m.regions.toList).toArray⟩
    have hmem : ∀ s, s ∈ next.regions ↔ s = first ∨ s ∈ m.regions := fun s => by
      rw [List.mem_toArray, mem_insert, Array.mem_toList_iff]
    have hordered : next.Ordered :=
      pairwise_insert (fun s hs => hmapFirst s (Array.mem_toList_iff.mp hs)) hm
    have hclear : ∀ r ∈ rest, ∀ s ∈ next.regions, s.meets r.toExtent = false := by
      intro r hr s hs
      obtain rfl | hs := (hmem s).mp hs
      · exact hfirst r hr
      · exact hmapRest r hr s hs
    obtain ⟨m', hadd, hm', hall⟩ := ih hordered hclear hrest
    refine ⟨m', ?_, hm', fun r => ?_⟩
    · rw [addAll, add_of_not_meets hmapFirst]
      exact hadd
    · rw [hall, hmem, List.mem_cons, or_assoc, or_left_comm]

/-! ### Halving -/

/-- Where keys begin to exceed a bound, if they ascend: those before it do not, those from it on
do. -/
theorem partitionPoint_spec {key : Nat → Nat} {bound low high size : Nat} (hlow : low ≤ high)
    (hhigh : high ≤ size) (ascending : ∀ i j, i ≤ j → j < size → key i ≤ key j)
    (below : ∀ i < low, key i ≤ bound) (above : ∀ i < size, high ≤ i → bound < key i) :
    partitionPoint key bound low high ≤ size ∧
      ∀ i < size, key i ≤ bound ↔ i < partitionPoint key bound low high := by
  induction low, high using partitionPoint.induct key bound with
  | case1 low high hlt middle hle ih =>
    -- All keys up to the middle one are within the bound.
    have hbelow : ∀ i < middle + 1, key i ≤ bound := fun i hi =>
      Nat.le_trans (ascending i middle (Nat.le_of_lt_succ hi) (by omega)) hle
    rw [partitionPoint, if_pos hlt, if_pos hle]
    exact ih (by omega) hhigh hbelow above
  | case2 low high hlt middle hgt ih =>
    -- All keys from the middle one on exceed the bound.
    have habove : ∀ i < size, middle ≤ i → bound < key i := fun i hi hmiddle =>
      Nat.lt_of_lt_of_le (Nat.lt_of_not_le hgt) (ascending middle i hmiddle hi)
    rw [partitionPoint, if_pos hlt, if_neg hgt]
    exact ih (by omega) (by omega) below habove
  | case3 low high hlt =>
    rw [partitionPoint, if_neg hlt]
    refine ⟨by omega, fun i hi => ⟨fun hle => Nat.lt_of_not_le fun hge => ?_, below i⟩⟩
    have := above i hi (by omega)
    omega

theorem startAt_of_lt (m : MemoryMap δ) {i : Nat} (hi : i < m.regions.size) :
    m.startAt i = m.regions[i].start := by
  rw [startAt, Array.getElem?_eq_getElem hi]

theorem Ordered.stop_le {m : MemoryMap δ} (h : m.Ordered) {i j : Nat} (hij : i < j)
    (hj : j < m.regions.size) (hi : i < m.regions.size) :
    m.regions[i].stop ≤ m.regions[j].start := by
  have := List.pairwise_iff_getElem.mp h i j hi hj hij
  rwa [Array.getElem_toList, Array.getElem_toList] at this

theorem Ordered.ascending {m : MemoryMap δ} (h : m.Ordered) (i j : Nat) (hij : i ≤ j)
    (hj : j < m.regions.size) : m.startAt i ≤ m.startAt j := by
  obtain rfl | hij := Nat.eq_or_lt_of_le hij
  · exact Nat.le_refl _
  · have hi := Nat.lt_trans hij hj
    have hstart := m.regions[i].start_lt_stop
    have hstop := h.stop_le hij hj hi
    rw [startAt_of_lt m hj, startAt_of_lt m hi]
    omega

/-- A region contains an address only at the last place before the keys exceed it. -/
theorem Ordered.find?_of_contains {m : MemoryMap δ} (h : m.Ordered) {address i : Nat}
    (hi : i < m.regions.size) (hc : m.regions[i].contains address = true) :
    m.find? address = some m.regions[i] := by
  obtain ⟨hstart, hstop⟩ := (Extent.contains_iff _ _).mp hc
  obtain ⟨hsize, hpoint⟩ : partitionPoint m.startAt address 0 m.regions.size ≤ m.regions.size ∧
      ∀ i < m.regions.size, m.startAt i ≤ address ↔
        i < partitionPoint m.startAt address 0 m.regions.size :=
    partitionPoint_spec (Nat.zero_le _) (Nat.le_refl _) h.ascending
      (fun i hi => absurd hi (Nat.not_lt_zero i))
      (fun i hi hge => absurd hi (Nat.not_lt.mpr hge))
  have hlt := (hpoint i hi).mp (by rwa [startAt_of_lt m hi])
  unfold find?
  split
  · rename_i hzero
    exact absurd hlt (by omega)
  · rename_i place hplace
    rw [hplace] at hsize hpoint hlt
    obtain rfl | hbefore : i = place ∨ i < place := by omega
    · rw [Array.getElem?_eq_getElem hi, Option.filter_some, if_pos hc]
    · -- The region at a later place would start after the address.
      have hlater := (hpoint place hsize).mpr (Nat.lt_succ_self place)
      rw [startAt_of_lt m hsize] at hlater
      have := h.stop_le hbefore hsize hi
      omega

/-- The region that is found is the one that contains the address. -/
theorem find?_eq_some_iff {m : MemoryMap δ} (h : m.Ordered) {address : Nat} {r : Region δ} :
    m.find? address = some r ↔ r ∈ m.regions ∧ r.contains address = true := by
  constructor
  · intro hfind
    unfold find? at hfind
    split at hfind
    · cases hfind
    · obtain ⟨hplace, hc⟩ := Option.filter_eq_some_iff.mp hfind
      exact ⟨Array.mem_of_getElem? hplace, hc⟩
  · rintro ⟨hr, hc⟩
    obtain ⟨i, hi, rfl⟩ := Array.mem_iff_getElem.mp hr
    exact h.find?_of_contains hi hc

end MemoryMap

/-! ### The windows of a configuration -/

namespace Config

/-- An address lies in a window. -/
def Holds (cfg : Config) (window : Interface) (address : Nat) : Prop :=
  cfg.base window ≤ address ∧ address < cfg.stop window

instance (cfg : Config) (window : Interface) (address : Nat) :
    Decidable (cfg.Holds window address) :=
  inferInstanceAs (Decidable (_ ∧ _))

theorem clash_comm (cfg : Config) (a b : Interface) : cfg.clash a b = cfg.clash b a := by
  rw [clash, clash, Bool.or_comm (decide _), Bool.and_comm]

/-- No two windows of a valid configuration clash. -/
theorem clash_of_validate {cfg : Config} (h : cfg.validate = .ok ()) {a b : Interface}
    (hne : a ≠ b) : cfg.clash a b = false := by
  have hpairs : ∀ pair ∈ windowPairs, cfg.clash pair.1 pair.2 = false := by
    unfold validate at h
    repeat' split at h
    any_goals cases h
    rename_i hnone
    intro pair hpair
    exact Bool.eq_false_iff.mpr (List.find?_eq_none.mp hnone pair hpair)
  -- Each pair is compared in one order only.
  have hlisted : (a, b) ∈ windowPairs ∨ (b, a) ∈ windowPairs := by
    revert hne
    cases a <;> cases b <;> decide
  obtain hab | hba := hlisted
  · exact hpairs (a, b) hab
  · rw [clash_comm]
    exact hpairs (b, a) hba

/-- The windows of a valid configuration end before the last address, one before the other. -/
theorem apart_of_validate {cfg : Config} (h : cfg.validate = .ok ()) {a b : Interface}
    (hne : a ≠ b) :
    cfg.stop a < addressSpace ∧ (cfg.stop b ≤ cfg.base a ∨ cfg.stop a ≤ cfg.base b) := by
  have hclash := clash_of_validate h hne
  simp only [clash, Bool.or_eq_false_iff, Bool.and_eq_false_iff, decide_eq_false_iff_not,
    Nat.not_le, Nat.not_lt] at hclash
  exact ⟨hclash.1.1, hclash.2⟩

theorem stop_lt_of_validate {cfg : Config} (h : cfg.validate = .ok ()) (window : Interface) :
    cfg.stop window < addressSpace := by
  have hother : ∃ other, window ≠ other := by
    cases window
    case distributor => exact ⟨.cpuInterface, by decide⟩
    all_goals exact ⟨.distributor, by decide⟩
  obtain ⟨other, hne⟩ := hother
  exact (apart_of_validate h hne).1

/-- At most one window holds an address. -/
theorem holds_unique {cfg : Config} (h : cfg.validate = .ok ()) {a b : Interface} {address : Nat}
    (ha : cfg.Holds a address) (hb : cfg.Holds b address) : a = b := by
  refine Decidable.byContradiction fun hne => ?_
  obtain ⟨-, hapart⟩ := apart_of_validate h hne
  simp only [Holds] at ha hb
  omega

end Config

/-- A region is made of a window that ends before the last address. -/
theorem Region.make_window {cfg : Config} (h : cfg.validate = .ok ()) (window : Interface) :
    ∃ r : Region Interface, make (cfg.base window) window.windowSize window = .ok r ∧
      r.start = cfg.base window ∧ r.stop = cfg.stop window ∧ r.device = window := by
  have hpos : 0 < window.windowSize := by cases window <;> decide
  have hfits : cfg.base window + window.windowSize < addressSpace :=
    Config.stop_lt_of_validate h window
  refine ⟨⟨⟨cfg.base window, ⟨window.windowSize, hpos⟩⟩, window, hfits⟩, ?_, rfl, rfl, rfl⟩
  rw [make, Size.ofBytes?, dif_pos hpos]
  exact dif_pos hfits

/-- The windows of a configuration are mapped, and nothing else. -/
structure MemoryMap.Serves (m : MemoryMap Interface) (cfg : Config) : Prop where
  /-- Every region ends before the next one starts. -/
  ordered : m.Ordered
  /-- There is a region for every window. -/
  mapped : ∀ window, ∃ r ∈ m.regions, r.device = window
  /-- Every region is its window. -/
  placed : ∀ r ∈ m.regions, r.start = cfg.base r.device ∧ r.stop = cfg.stop r.device

namespace MemoryMap.Serves

variable {m : MemoryMap Interface} {cfg : Config}

/-- An address in a window is decoded to that window. -/
theorem find?_of_holds (h : m.Serves cfg) {window : Interface} {address : Nat}
    (ha : cfg.Holds window address) :
    ∃ r, m.find? address = some r ∧ r.device = window ∧ r.start = cfg.base window := by
  obtain ⟨r, hr, rfl⟩ := h.mapped window
  obtain ⟨hstart, hstop⟩ := h.placed r hr
  refine ⟨r, (find?_eq_some_iff h.ordered).mpr ⟨hr, ?_⟩, rfl, hstart⟩
  rw [Extent.contains_iff, hstart, hstop]
  exact ha

/-- An address in no window is not decoded. -/
theorem find?_of_not_holds (h : m.Serves cfg) {address : Nat}
    (ha : ∀ window, ¬ cfg.Holds window address) : m.find? address = none := by
  cases hfind : m.find? address with
  | none => rfl
  | some r =>
    obtain ⟨hmem, hc⟩ := (find?_eq_some_iff h.ordered).mp hfind
    obtain ⟨hstart, hstop⟩ := h.placed r hmem
    rw [Extent.contains_iff, hstart, hstop] at hc
    exact absurd hc (ha r.device)

end MemoryMap.Serves

namespace Board

variable {cfg : Config}

theorem mem_windowRegions (h : cfg.validate = .ok ()) {r : Region Interface}
    (hr : r ∈ windowRegions cfg) :
    r.start = cfg.base r.device ∧ r.stop = cfg.stop r.device := by
  obtain ⟨window, -, hmake⟩ := List.mem_filterMap.mp hr
  obtain ⟨s, hs, hstart, hstop, hdevice⟩ := Region.make_window h window
  rw [hs] at hmake
  obtain rfl : s = r := Option.some.inj hmake
  rw [hdevice]
  exact ⟨hstart, hstop⟩

/-- No two windows of a valid configuration meet. -/
theorem pairwise_windowRegions (h : cfg.validate = .ok ()) :
    (windowRegions cfg).Pairwise fun a b => a.meets b.toExtent = false := by
  have hall : Interface.all.Pairwise (· ≠ ·) := by decide
  refine hall.filterMap _ fun a b hne r hr s hs => ?_
  obtain ⟨r', hmake, hstart, hstop, -⟩ := Region.make_window h a
  obtain ⟨s', hmake', hstart', hstop', -⟩ := Region.make_window h b
  rw [hmake] at hr
  rw [hmake'] at hs
  obtain rfl : r' = r := Option.some.inj hr
  obtain rfl : s' = s := Option.some.inj hs
  rw [Extent.meets_eq_false_iff, hstart, hstop, hstart', hstop']
  exact (Config.apart_of_validate h hne).2

/-- A board can be built for every valid configuration. -/
theorem build_of_valid (h : cfg.validate = .ok ()) :
    ∃ map : MemoryMap Interface, map.Serves cfg ∧
      build cfg = .ok
        { controller := .powerOn cfg
          map
          plumbing :=
            { (Plumbing.new : Plumbing Unit) with subscribers := [(controllerDevice, ())] } } := by
  have hempty : (MemoryMap.empty : MemoryMap Interface).Ordered := List.Pairwise.nil
  obtain ⟨map, hadd, hordered, hmem⟩ := MemoryMap.addAll_of_not_meets hempty
    (fun _ _ s hs => absurd hs (Array.not_mem_empty s)) (pairwise_windowRegions h)
  have hmem : ∀ r, r ∈ map.regions ↔ r ∈ windowRegions cfg := fun r =>
    (hmem r).trans (or_iff_right (Array.not_mem_empty r))
  refine ⟨map, ⟨hordered, fun window => ?_, fun r hr => ?_⟩, ?_⟩
  · obtain ⟨r, hmake, -, -, hdevice⟩ := Region.make_window h window
    refine ⟨r, (hmem r).mpr (List.mem_filterMap.mpr ⟨window, ?_, ?_⟩), hdevice⟩
    · cases window <;> decide
    · rw [hmake]
      rfl
  · exact mem_windowRegions h ((hmem r).mp hr)
  · rw [build, h]
    dsimp only
    rw [hadd]

/-- Boards are built for valid configurations only. -/
theorem validate_of_build {b : Board cfg} (h : build cfg = .ok b) : cfg.validate = .ok () := by
  unfold build at h
  split at h
  · cases h
  · rename_i hv
    exact hv

end Board

end Gic
