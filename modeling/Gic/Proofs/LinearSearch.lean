import Gic.Proofs.Decoding
import Mathlib.Data.List.Induction

/-!
# The memory map decodes like a linear search

Regions are offered to a map one after the other. Those that share an address
with a region of the map are refused, the others are put in their place, and an
address is found by halving. This module shows that all this is no more than a
list of the regions that were accepted, searched from its beginning.

## The model

* `Extent.Shares` — two extents have an address in common.
* `MemoryMap.offerAll` — a map to which regions are offered; one that is refused
  leaves it as it is.
* `MemoryMap.accepted` — the list of those that are accepted, in the order in
  which they are offered.
* `MemoryMap.TakesAll` — none of the regions that are offered is refused.
* `MemoryMap.Keeps` — a map has the regions of a list on it, each once, in
  ascending order and apart from each other.
* `MemoryMap.Judges` — how a map that keeps a list judges one more region.
* `MemoryMap.access` — an access on a bus, whatever its devices do.
* `MemoryMap.Decodes` — where a map that keeps a list takes an address.
* `Board.Accesses` — the accesses of a board are such accesses.

## What is proved

* `Extent.meets_iff_shares` — the comparison of two extents by their ends finds
  out whether they have an address in common.
* `MemoryMap.Keeps.judges`, `MemoryMap.keeps_offerAll` — what one more region
  does, and from it what all do.
* `MemoryMap.addAll_eq_ok_iff`, `MemoryMap.addAll_eq_error_iff` — adding regions
  in one go is offering them, up to the first that is refused.
* `MemoryMap.Keeps.decodes` — halving finds what a linear search does.
* `MemoryMap.decodes_like_linear_search` — all of it, for every list of regions.
-/

namespace Gic

namespace Extent

/-- Two extents have an address in common. -/
def Shares (a b : Extent) : Prop :=
  ∃ address, a.contains address = true ∧ b.contains address = true

/-- Extents meet if and only if they have an address in common. -/
theorem meets_iff_shares (a b : Extent) : a.meets b = true ↔ a.Shares b := by
  have ha := a.start_lt_stop
  have hb := b.start_lt_stop
  simp only [Shares, contains_iff]
  rw [meets, Bool.and_eq_true, decide_eq_true_eq, decide_eq_true_eq]
  constructor
  · rintro ⟨hab, hba⟩
    -- The later one of the two starts is in both.
    exact ⟨max a.start b.start, by omega, by omega⟩
  · rintro ⟨address, ⟨hastart, hastop⟩, hbstart, hbstop⟩
    omega

theorem meets_eq_false_iff_not_shares (a b : Extent) : a.meets b = false ↔ ¬ a.Shares b := by
  rw [← meets_iff_shares, Bool.not_eq_true]

end Extent

namespace MemoryMap

variable {δ : Type}

/-! ### Regions that are offered -/

/-- The map after a region is offered to it. -/
def offer (m : MemoryMap δ) (r : Region δ) : MemoryMap δ :=
  match m.add r with
  | .ok m => m
  | .error _ => m

/-- The map after regions are offered to it one after the other, the first one first. -/
def offerAll (m : MemoryMap δ) (offered : List (Region δ)) : MemoryMap δ := offered.foldl offer m

/-- None of the regions is refused when it is offered. -/
def TakesAll (m : MemoryMap δ) (offered : List (Region δ)) : Prop :=
  ∀ before r rest, offered = before ++ r :: rest → ∃ m', (m.offerAll before).add r = .ok m'

/-- Puts a region last, unless it meets one that is already there. -/
def accept (held : List (Region δ)) (r : Region δ) : List (Region δ) :=
  if held.any fun s => s.meets r.toExtent then held else held ++ [r]

/-- The regions that are accepted: those that meet none of those accepted before them. -/
def accepted (offered : List (Region δ)) : List (Region δ) := offered.foldl accept []

theorem offerAll_concat (m : MemoryMap δ) (offered : List (Region δ)) (r : Region δ) :
    m.offerAll (offered ++ [r]) = (m.offerAll offered).offer r :=
  List.foldl_append

theorem accepted_concat (offered : List (Region δ)) (r : Region δ) :
    accepted (offered ++ [r]) = accept (accepted offered) r :=
  List.foldl_append

theorem accept_of_clear {held : List (Region δ)} {r : Region δ}
    (h : ∀ s ∈ held, ¬ s.Shares r.toExtent) : accept held r = held ++ [r] := by
  have hnone : ¬ (held.any fun s => s.meets r.toExtent) = true := by
    rw [List.any_eq_true]
    rintro ⟨s, hs, hmeets⟩
    exact h s hs ((Extent.meets_iff_shares _ _).mp hmeets)
  exact if_neg hnone

theorem accept_of_shares {held : List (Region δ)} {r s : Region δ} (hs : s ∈ held)
    (h : s.Shares r.toExtent) : accept held r = held :=
  if_pos (List.any_eq_true.mpr ⟨s, hs, (Extent.meets_iff_shares _ _).mpr h⟩)

/-- A region is put in its place once. -/
theorem insert_perm (r : Region δ) (regions : List (Region δ)) :
    (insert r regions).Perm (r :: regions) := by
  induction regions with
  | nil => exact .refl _
  | cons first rest ih =>
    rw [insert]
    split
    · exact .refl _
    · exact (ih.cons first).trans (.swap r first rest)

/-! ### One more region -/

/-- The regions of a list are on the map, and nothing else is. -/
structure Keeps (m : MemoryMap δ) (held : List (Region δ)) : Prop where
  /-- The map has each of them once. -/
  regions : m.regions.toList.Perm held
  /-- Every region ends before the next one starts. -/
  ordered : m.Ordered

/-- How a map that keeps a list of regions judges one more region. -/
structure Judges (m : MemoryMap δ) (held : List (Region δ)) (r : Region δ) : Prop where
  /-- It is added if it has no address in common with any of them. -/
  added : (∃ m', m.add r = .ok m') ↔ ∀ s ∈ held, ¬ s.Shares r.toExtent
  /-- If it is added, it is one more region on the map. -/
  grows : ∀ m', m.add r = .ok m' → m.offer r = m' ∧ m'.Keeps (held ++ [r])
  /-- If it is refused, the map stays as it is. The error names those with which it has an address
  in common and no others, in ascending order. -/
  refused : ∀ e, m.add r = .error e → m.offer r = m ∧
    ∃ others, e = .overlaps r.toExtent others ∧
      (∀ other, other ∈ others ↔ ∃ s ∈ held, s.toExtent = other ∧ s.Shares r.toExtent) ∧
      others.Pairwise fun a b => a.start < b.start

theorem keeps_empty : Keeps (empty : MemoryMap δ) [] := ⟨.refl _, .nil⟩

theorem offer_of_ok {m m' : MemoryMap δ} {r : Region δ} (h : m.add r = .ok m') :
    m.offer r = m' := by rw [offer, h]

theorem offer_of_error {m : MemoryMap δ} {r : Region δ} {e : MapError}
    (h : m.add r = .error e) : m.offer r = m := by rw [offer, h]

/-- The regions start one after the other. -/
theorem Ordered.starts {m : MemoryMap δ} (h : m.Ordered) :
    m.regions.toList.Pairwise fun a b => a.start < b.start :=
  h.imp fun {a _} hab => Nat.lt_of_lt_of_le a.start_lt_stop hab

namespace Keeps

variable {m : MemoryMap δ} {held : List (Region δ)}

theorem mem_iff (h : m.Keeps held) (r : Region δ) : r ∈ m.regions ↔ r ∈ held :=
  Array.mem_toList_iff.symm.trans h.regions.mem_iff

/-- A region that has no address in common with those on a map is added to them. -/
theorem add_of_clear (h : m.Keeps held) {r : Region δ}
    (hclear : ∀ s ∈ held, ¬ s.Shares r.toExtent) :
    ∃ m', m.add r = .ok m' ∧ m'.Keeps (held ++ [r]) := by
  have hregions : ∀ s ∈ m.regions, s.meets r.toExtent = false := fun s hs =>
    (Extent.meets_eq_false_iff_not_shares _ _).mpr (hclear s ((h.mem_iff s).mp hs))
  have hperm : (insert r m.regions.toList).Perm (held ++ [r]) :=
    calc insert r m.regions.toList
      _ |>.Perm (r :: m.regions.toList) := insert_perm r _
      _ |>.Perm (r :: held) := h.regions.cons r
      _ |>.Perm (held ++ [r]) := (List.perm_append_singleton r held).symm
  refine ⟨_, add_of_not_meets hregions, hperm, ?_⟩
  exact pairwise_insert (fun s hs => hregions s (Array.mem_toList_iff.mp hs)) h.ordered

theorem mem_meeting (h : m.Keeps held) (r : Region δ) (other : Extent) :
    other ∈ m.meeting r.toExtent ↔ ∃ s ∈ held, s.toExtent = other ∧ s.Shares r.toExtent := by
  rw [meeting, List.mem_filter, List.mem_map, Extent.meets_iff_shares]
  constructor
  · rintro ⟨⟨s, hs, rfl⟩, hshares⟩
    exact ⟨s, h.regions.mem_iff.mp hs, rfl, hshares⟩
  · rintro ⟨s, hs, rfl, hshares⟩
    exact ⟨⟨s, h.regions.mem_iff.mpr hs, rfl⟩, hshares⟩

theorem pairwise_meeting (h : m.Keeps held) (r : Region δ) :
    (m.meeting r.toExtent).Pairwise fun a b => a.start < b.start := by
  have hstarts : (m.regions.toList.map Region.toExtent).Pairwise fun a b => a.start < b.start :=
    List.pairwise_map.mpr h.ordered.starts
  exact hstarts.filter _

/-- A region that has an address in common with one on a map is refused. -/
theorem add_of_shares (h : m.Keeps held) {r s : Region δ} (hs : s ∈ held)
    (hshares : s.Shares r.toExtent) :
    m.add r = .error (.overlaps r.toExtent (m.meeting r.toExtent)) := by
  have hmem : s.toExtent ∈ m.meeting r.toExtent :=
    (h.mem_meeting r _).mpr ⟨s, hs, rfl, hshares⟩
  rw [MemoryMap.add]
  split
  · rename_i hnone
    rw [hnone] at hmem
    cases hmem
  · rfl

/-- A region is added or it is refused. -/
theorem clear_or_shares (held : List (Region δ)) (r : Region δ) :
    (∀ s ∈ held, ¬ s.Shares r.toExtent) ∨ ∃ s ∈ held, s.Shares r.toExtent := by
  by_cases h : ∃ s ∈ held, s.Shares r.toExtent
  · exact .inr h
  · exact .inl fun s hs hshares => h ⟨s, hs, hshares⟩

theorem judges (h : m.Keeps held) (r : Region δ) : m.Judges held r := by
  obtain hclear | ⟨s, hs, hshares⟩ := clear_or_shares held r
  · obtain ⟨next, hadd, hnext⟩ := h.add_of_clear hclear
    refine ⟨⟨fun _ => hclear, fun _ => ⟨next, hadd⟩⟩, fun m' hm' => ?_, fun e he => ?_⟩
    · obtain rfl : next = m' := Except.ok.inj (hadd.symm.trans hm')
      exact ⟨offer_of_ok hadd, hnext⟩
    · cases hadd.symm.trans he
  · have hadd := h.add_of_shares hs hshares
    refine ⟨⟨?_, fun hclear => absurd hshares (hclear s hs)⟩, fun m' hm' => ?_, fun e he => ?_⟩
    · rintro ⟨m', hm'⟩
      cases hadd.symm.trans hm'
    · cases hadd.symm.trans hm'
    · obtain rfl := Except.error.inj (hadd.symm.trans he)
      exact ⟨offer_of_error hadd, _, rfl, h.mem_meeting r, h.pairwise_meeting r⟩

/-- What one offer does is what the list of accepted regions says. -/
theorem offer (h : m.Keeps held) (r : Region δ) : (m.offer r).Keeps (accept held r) := by
  obtain hclear | ⟨s, hs, hshares⟩ := clear_or_shares held r
  · obtain ⟨m', hadd, hm'⟩ := h.add_of_clear hclear
    rw [accept_of_clear hclear, offer_of_ok hadd]
    exact hm'
  · rw [accept_of_shares hs hshares, offer_of_error (h.add_of_shares hs hshares)]
    exact h

end Keeps

/-! ### All regions -/

/-- However many regions are offered, the map keeps those that are accepted. -/
theorem keeps_offerAll (offered : List (Region δ)) :
    Keeps (empty.offerAll offered) (accepted offered) := by
  induction offered using List.reverseRecOn with
  | nil => exact keeps_empty
  | append_singleton offered r ih =>
    rw [offerAll_concat, accepted_concat]
    exact ih.offer r

/-- Regions of which no two have an address in common are all accepted. -/
theorem accepted_of_pairwise {offered : List (Region δ)}
    (h : offered.Pairwise fun a b => ¬ a.Shares b.toExtent) : accepted offered = offered := by
  induction offered using List.reverseRecOn with
  | nil => rfl
  | append_singleton offered r ih =>
    obtain ⟨hoffered, -, hclear⟩ := List.pairwise_append.mp h
    rw [accepted_concat, ih hoffered]
    exact accept_of_clear fun s hs => hclear s hs r (List.mem_singleton_self r)

theorem takesAll_nil (m : MemoryMap δ) : m.TakesAll [] := by
  intro before r rest hnil
  cases before <;> cases hnil

theorem takesAll_cons {m : MemoryMap δ} {r : Region δ} {rest : List (Region δ)} :
    m.TakesAll (r :: rest) ↔ (∃ m', m.add r = .ok m') ∧ (m.offer r).TakesAll rest := by
  constructor
  · intro h
    refine ⟨h [] r rest rfl, fun before s after hsplit => ?_⟩
    exact h (r :: before) s after (congrArg (r :: ·) hsplit)
  · rintro ⟨hfirst, hrest⟩ before s after hsplit
    cases before with
    | nil =>
      obtain ⟨rfl, rfl⟩ := List.cons.inj hsplit
      exact hfirst
    | cons first before =>
      obtain ⟨rfl, rfl⟩ := List.cons.inj hsplit
      exact hrest before s after rfl

/-- Regions can be added in one go if none of them is refused. The map is the same. -/
theorem addAll_eq_ok_iff {m m' : MemoryMap δ} {offered : List (Region δ)} :
    m.addAll offered = .ok m' ↔ m.TakesAll offered ∧ m.offerAll offered = m' := by
  induction offered generalizing m with
  | nil =>
    rw [and_iff_right m.takesAll_nil]
    exact Except.ok.injEq m m' ▸ Iff.rfl
  | cons r rest ih =>
    rw [takesAll_cons, addAll]
    split
    · rename_i next hadd
      have htakes : ∃ m', m.add r = .ok m' := ⟨next, hadd⟩
      rw [ih, and_iff_right htakes, offerAll, offerAll, List.foldl_cons, offer_of_ok hadd]
    · rename_i e hadd
      constructor
      · intro h
        cases h
      · rintro ⟨⟨⟨next, hnext⟩, -⟩, -⟩
        cases hadd.symm.trans hnext

/-- If one of the regions is refused, the error is that of the first such region. -/
theorem addAll_eq_error_iff {m : MemoryMap δ} {offered : List (Region δ)} {e : MapError} :
    m.addAll offered = .error e ↔ ∃ before r rest, offered = before ++ r :: rest ∧
      m.TakesAll before ∧ (m.offerAll before).add r = .error e := by
  induction offered generalizing m with
  | nil =>
    constructor
    · intro h
      cases h
    · rintro ⟨before, r, rest, hnil, -⟩
      cases before <;> cases hnil
  | cons first rest ih =>
    rw [addAll]
    split
    · rename_i next hadd
      rw [ih]
      constructor
      · rintro ⟨before, r, after, rfl, htakes, hr⟩
        refine ⟨first :: before, r, after, rfl, takesAll_cons.mpr ⟨⟨next, hadd⟩, ?_⟩, ?_⟩
        · rwa [offer_of_ok hadd]
        · rwa [offerAll, List.foldl_cons, offer_of_ok hadd]
      · rintro ⟨before, r, after, hsplit, htakes, hr⟩
        cases before with
        | nil =>
          obtain ⟨rfl, rfl⟩ := List.cons.inj hsplit
          cases hadd.symm.trans hr
        | cons head before =>
          obtain ⟨rfl, rfl⟩ := List.cons.inj hsplit
          rw [takesAll_cons, offer_of_ok hadd] at htakes
          rw [offerAll, List.foldl_cons, offer_of_ok hadd] at hr
          exact ⟨before, r, after, rfl, htakes.2, hr⟩
    · rename_i error hadd
      constructor
      · intro h
        exact ⟨[], first, rest, rfl, m.takesAll_nil, hadd.trans h⟩
      · rintro ⟨before, r, after, hsplit, htakes, hr⟩
        cases before with
        | nil =>
          obtain ⟨rfl, rfl⟩ := List.cons.inj hsplit
          exact hadd.symm.trans hr
        | cons head before =>
          obtain ⟨rfl, rfl⟩ := List.cons.inj hsplit
          obtain ⟨⟨next, hnext⟩, -⟩ := takesAll_cons.mp htakes
          cases hadd.symm.trans hnext

/-! ### Accesses -/

/-- An access on a bus with devices that are in some state. What a device does with a transaction
is left open. -/
def access {σ α : Type} (m : MemoryMap δ)
    (reach : δ → Transaction → σ → Traced Note (Except BusError α × σ)) (t : Transaction) (s : σ) :
    Traced Note (Except BusError α × σ) := do
  match ← m.route t with
  | .error e => return (.error e, s)
  | .ok (device, t) => reach device t s

/-- A transaction as the device of a region sees it: the address is the offset in the region. -/
def within (r : Region δ) (t : Transaction) : Transaction :=
  { t with address := t.address - r.start }

/-- Where a map that keeps a list of regions takes an address. -/
structure Decodes (m : MemoryMap δ) (held : List (Region δ)) : Prop where
  /-- The region that is found is the first one on the list that contains the address. -/
  first : ∀ address, m.find? address = held.find? fun r => r.contains address
  /-- It is the only one. -/
  unique : ∀ address r, m.find? address = some r ↔ r ∈ held ∧ r.contains address = true
  /-- A transaction in a region is performed by the device of that region, as a transaction at the
  offset in it. Nothing else is done. -/
  reached : ∀ {σ α : Type} (reach : δ → Transaction → σ → Traced Note (Except BusError α × σ))
    (t : Transaction) (s : σ), ∀ r ∈ held, r.contains t.address = true →
      m.access reach t s = reach r.device (within r t) s
  /-- A transaction in none of the regions is reported and fails. No device takes part in it. -/
  unreached : ∀ {σ α : Type} (reach : δ → Transaction → σ → Traced Note (Except BusError α × σ))
    (t : Transaction) (s : σ), (∀ r ∈ held, r.contains t.address = false) →
      m.access reach t s = ⟨(.error (.invalidAddress t.address), s), [unmapped t]⟩

theorem access_of_find? {σ α : Type} {m : MemoryMap δ}
    (reach : δ → Transaction → σ → Traced Note (Except BusError α × σ)) {t : Transaction} (s : σ)
    {r : Region δ} (h : m.find? t.address = some r) :
    m.access reach t s = reach r.device (within r t) s := by
  have hroute : m.route t = pure (.ok (r.device, within r t)) := by
    rw [route, h]
    rfl
  rw [access, hroute]
  rfl

theorem access_of_find?_none {σ α : Type} {m : MemoryMap δ}
    (reach : δ → Transaction → σ → Traced Note (Except BusError α × σ)) {t : Transaction} (s : σ)
    (h : m.find? t.address = none) :
    m.access reach t s = ⟨(.error (.invalidAddress t.address), s), [unmapped t]⟩ := by
  rw [access, route, h]
  rfl

/-- Halving finds what a search from the beginning does. -/
theorem Keeps.decodes {m : MemoryMap δ} {held : List (Region δ)} (h : m.Keeps held) :
    m.Decodes held := by
  have hunique : ∀ address r, m.find? address = some r ↔ r ∈ held ∧ r.contains address = true :=
    fun address r => by rw [find?_eq_some_iff h.ordered, h.mem_iff]
  have hnone : ∀ address, (∀ r ∈ held, r.contains address = false) → m.find? address = none := by
    intro address hheld
    refine Option.eq_none_iff_forall_ne_some.mpr fun r hr => ?_
    obtain ⟨hmem, hcontains⟩ := (hunique address r).mp hr
    cases (hheld r hmem).symm.trans hcontains
  refine ⟨fun address => ?_, hunique, ?_, ?_⟩
  · cases hfirst : held.find? fun r => r.contains address with
    | none =>
      exact hnone address fun r hr => Bool.eq_false_iff.mpr (List.find?_eq_none.mp hfirst r hr)
    | some r =>
      have hcontains : r.contains address = true :=
        List.find?_some (p := fun r : Region δ => r.contains address) hfirst
      exact (hunique address r).mpr ⟨List.mem_of_find?_eq_some hfirst, hcontains⟩
  · intro σ α reach t s r hr hcontains
    exact access_of_find? reach s ((hunique _ _).mpr ⟨hr, hcontains⟩)
  · intro σ α reach t s hheld
    exact access_of_find?_none reach s (hnone _ hheld)

end MemoryMap

/-- The accesses of a board are accesses on its map. The window that is reached performs them on
the controller. -/
structure Board.Accesses {cfg : Config} (b : Board cfg) : Prop where
  /-- It reads. -/
  read : ∀ initiator address width, b.read initiator address width =
    b.map.access
      (fun window t b => b.perform fun g => g.read window t.initiator t.address t.width)
      ⟨initiator, address, width, .read⟩ b
  /-- It writes. -/
  write : ∀ initiator address value width, b.write initiator address value width =
    b.map.access
      (fun window t b => b.perform fun g => g.write window t.initiator t.address value t.width)
      ⟨initiator, address, width, .write value⟩ b

theorem Board.accesses {cfg : Config} (b : Board cfg) : b.Accesses where
  read initiator address width := by
    rw [Board.read, MemoryMap.access]
    congr 1
    funext routed
    cases routed <;> rfl
  write initiator address value width := by
    rw [Board.write, MemoryMap.access]
    congr 1
    funext routed
    cases routed <;> rfl

namespace MemoryMap

variable {δ : Type}

/-- A map to which regions were offered is a list of those that were accepted, searched from its
beginning. The accesses of a board are accesses on such a map. -/
theorem decodes_like_linear_search (offered : List (Region δ)) :
    (empty.offerAll offered).Keeps (accepted offered) ∧
      (∀ r, (empty.offerAll offered).Judges (accepted offered) r ∧
        empty.offerAll (offered ++ [r]) = (empty.offerAll offered).offer r) ∧
      ((empty.offerAll offered).regions.toList.Pairwise fun a b => a.start < b.start) ∧
      (∀ m, empty.addAll offered = .ok m ↔
        empty.TakesAll offered ∧ empty.offerAll offered = m) ∧
      (∀ e, empty.addAll offered = .error e ↔ ∃ before r rest, offered = before ++ r :: rest ∧
        empty.TakesAll before ∧ (empty.offerAll before).add r = .error e) ∧
      (empty.offerAll offered).Decodes (accepted offered) ∧
      ∀ {cfg : Config} (b : Board cfg), b.Accesses := by
  have h := keeps_offerAll offered
  exact ⟨h, fun r => ⟨h.judges r, offerAll_concat _ _ _⟩, h.ordered.starts,
    fun m => addAll_eq_ok_iff, fun e => addAll_eq_error_iff, h.decodes, fun b => b.accesses⟩

end MemoryMap

end Gic
