import Gic.Proofs.DocumentReading
import Gic.Scenario.Script
import Mathlib.Data.List.Forall2
import Mathlib.Data.List.Nodup

/-!
# Scripts decode by field name

The object of a step names its kind and its values in any order, among fields
that mean nothing to the step. This module says which objects are those of a step
and which are those of none, and shows that scripts of the former decode to their
steps and that a script with one of the latter does not decode at all.

## The model

* `StepKind.rules` — the fields of each kind: what their values have to be, and
  whether they have to be given. The CPU of a private input has eight bits only.
* `Faulty` — an object that breaks a rule.
* `Step.InRange` — a step whose numbers are in the range that each has.
* `Step.Written` — the objects of a step: a permutation of the kind, the fields
  that are given and any others.

## What is proved

* `kept_of_ofFields?` — where there is a step, every rule is kept.
* `values_of_written` — in the object of a step, every name that means something
  to it has its one value, or none if it may be left out.
* `Script.ofDocument?_document` — a list of such objects decodes to the steps, by
  induction on the list.
* `Script.decode_by_field_name` — scripts decode completely or not at all, as
  documents and as texts.
-/

namespace Gic

/-! ### The values of a name -/

namespace Document

variable {fields : List (String × Document)} {name : String}

theorem mem_values {d : Document} : d ∈ values fields name ↔ (name, d) ∈ fields := by
  simp only [values, List.mem_map, List.mem_filter, beq_iff_eq]
  constructor
  · rintro ⟨⟨_, _⟩, ⟨hmem, rfl⟩, rfl⟩
    exact hmem
  · intro h
    exact ⟨(name, d), ⟨h, rfl⟩, rfl⟩

theorem length_values : (values fields name).length = (fields.map Prod.fst).count name := by
  rw [values, List.length_map, ← List.countP_eq_length_filter, List.count, List.countP_map]
  rfl

theorem values_eq_nil_iff : values fields name = [] ↔ name ∉ fields.map Prod.fst := by
  rw [← List.length_eq_zero_iff, length_values, List.count_eq_zero]

theorem values_append (more : List (String × Document)) :
    values (fields ++ more) name = values fields name ++ values more name := by
  rw [values, List.filter_append, List.map_append]
  rfl

theorem values_perm {others : List (String × Document)} (h : fields.Perm others) :
    (values fields name).Perm (values others name) :=
  (h.filter _).map Prod.snd

/-- A name that is given no more than once has the value that it is given. -/
theorem values_eq_singleton {d : Document} (hnodup : (fields.map Prod.fst).Nodup)
    (h : (name, d) ∈ fields) : values fields name = [d] := by
  have hcount : (fields.map Prod.fst).count name ≤ 1 := List.nodup_iff_count_le_one.mp hnodup name
  have hmem := mem_values.mpr h
  rw [← length_values] at hcount
  have hlen : (values fields name).length = 1 := by
    have := List.length_pos_of_mem hmem
    omega
  obtain ⟨d', hd'⟩ := List.length_eq_one_iff.mp hlen
  rw [hd', List.mem_singleton] at hmem
  rw [hd', hmem]

theorem required_eq_some_iff {α : Type} {read : Document → Option α} {a : α} :
    required fields name read = some a ↔ ∃ d, values fields name = [d] ∧ read d = some a := by
  unfold required
  split
  · rename_i d h
    simp [h]
  · rename_i h
    simp only [reduceCtorEq, false_iff, not_exists, not_and]
    exact fun d hd => absurd hd (h d)

theorem optional_eq_some_iff {α : Type} {read : Document → Option α} {missing a : α} :
    optional fields name missing read = some a
      ↔ (values fields name = [] ∧ missing = a)
        ∨ ∃ d, values fields name = [d] ∧ read d = some a := by
  unfold optional
  split
  · rename_i h
    simp [h]
  · rename_i d h
    simp [h]
  · rename_i hnil hone
    simp only [reduceCtorEq, false_iff, not_or, not_and, not_exists]
    exact ⟨fun h => absurd h hnil, fun d h => absurd h (hone d)⟩

/-! ### Values of a type -/

theorem natural?_eq_some_iff {bound n : Nat} {d : Document} :
    d.natural? bound = some n ↔ d = .integer n ∧ n < bound := by
  unfold natural?
  split
  · simp only [Option.ite_none_right_eq_some, Option.some.injEq, Document.integer.injEq]
    omega
  · rename_i h
    simp only [reduceCtorEq, false_iff, not_and]
    exact fun hd => absurd hd (h n)

theorem optionalNatural?_eq_some_iff {bound : Nat} {d : Document} {n : Option Nat} :
    d.optionalNatural? bound = some n
      ↔ (d = .null ∧ n = none) ∨ ∃ m, n = some m ∧ d = .integer m ∧ m < bound := by
  unfold optionalNatural?
  split
  · simp [eq_comm]
  · rename_i hnull
    simp only [Option.map_eq_some_iff, natural?_eq_some_iff]
    constructor
    · rintro ⟨m, ⟨hd, hm⟩, rfl⟩
      exact .inr ⟨m, rfl, hd, hm⟩
    · rintro (⟨rfl, -⟩ | ⟨m, rfl, hd, hm⟩)
      · exact absurd rfl hnull
      · exact ⟨m, ⟨hd, hm⟩, rfl⟩

theorem truth?_eq_some_iff {d : Document} {b : Bool} : d.truth? = some b ↔ d = .bool b := by
  cases d <;> simp [truth?]

theorem kind?_text (kind : StepKind) : kind? (.text kind.name) = some kind := by
  cases kind <;> rfl

theorem name_of_kind? {d : Document} {kind : StepKind} (h : d.kind? = some kind) :
    d = .text kind.name := by
  unfold kind? at h
  split at h
  · rename_i name
    have hname := List.find?_some h
    rw [beq_iff_eq] at hname
    rw [hname]
  · cases h

theorem window?_text (window : Interface) : window? (.text window.name) = some window := by
  cases window <;> rfl

theorem name_of_window? {name : String} {window : Interface}
    (h : window? (.text name) = some window) : window.name = name := by
  have hname := List.find?_some h
  rwa [beq_iff_eq] at hname

end Document

open Document

/-! ### What the fields of a step have to be -/

/-- What the value of a field has to be. -/
inductive FieldType where
  /-- The name of a window. -/
  | window
  /-- An integer from zero up to a bound. -/
  | natural (bound : Nat)
  /-- Such an integer or null. -/
  | optionalNatural (bound : Nat)
  /-- A truth value. -/
  | truth

/-- A document cannot be the value of a field: it is the name of no window, no integer in the
range, or no truth value. -/
def FieldType.Refuses : FieldType → Document → Prop
  | .window, d => ∃ name, d = .text name ∧ ∀ window : Interface, window.name ≠ name
  | .natural bound, d => ∀ n < bound, d ≠ .integer n
  | .optionalNatural bound, d => d ≠ .null ∧ ∀ n < bound, d ≠ .integer n
  | .truth, d => ∀ b, d ≠ .bool b

/-- What is asked of a field. -/
structure FieldRule where
  /-- Its name. -/
  name : String
  /-- What its value has to be. -/
  type : FieldType
  /-- Whether it has to be given. -/
  required : Bool

/-- The fields of a step. -/
def StepKind.rules : StepKind → List FieldRule
  | write =>
    [⟨"interface", .window, true⟩, ⟨"cpu", .natural (2 ^ 64), true⟩,
      ⟨"offset", .natural (2 ^ 64), true⟩, ⟨"value", .natural (2 ^ 64), true⟩,
      ⟨"width", .natural (2 ^ 8), false⟩]
  | read =>
    [⟨"interface", .window, true⟩, ⟨"cpu", .natural (2 ^ 64), true⟩,
      ⟨"offset", .natural (2 ^ 64), true⟩, ⟨"expect", .optionalNatural (2 ^ 64), false⟩,
      ⟨"width", .natural (2 ^ 8), false⟩]
  | ppi =>
    [⟨"cpu", .natural (2 ^ 8), true⟩, ⟨"index", .natural (2 ^ 16), true⟩, ⟨"level", .truth, true⟩]
  | spi => [⟨"index", .natural (2 ^ 16), true⟩, ⟨"level", .truth, true⟩]
  | expectIrq => [⟨"cpu", .natural (2 ^ 64), true⟩, ⟨"level", .truth, true⟩]
  | expectVirq => [⟨"cpu", .natural (2 ^ 64), true⟩, ⟨"level", .truth, true⟩]

theorem StepKind.map_name_rules (kind : StepKind) :
    kind.rules.map FieldRule.name = kind.fields := by
  cases kind <;> rfl

/-- The fields of an object keep to a rule: the name is given once, or not at all if that is
allowed, and not with a value that is refused. -/
def FieldRule.Kept (rule : FieldRule) (fields : List (String × Document)) : Prop :=
  (rule.required = false ∧ values fields rule.name = []) ∨
    ∃ d, values fields rule.name = [d] ∧ ¬ rule.type.Refuses d

theorem not_refuses_window {d : Document} {window : Interface} (h : d.window? = some window) :
    ¬ FieldType.window.Refuses d := by
  rintro ⟨text, rfl, hname⟩
  exact hname window (name_of_window? h)

theorem not_refuses_natural {bound n : Nat} {d : Document} (h : d.natural? bound = some n) :
    ¬ (FieldType.natural bound).Refuses d := by
  obtain ⟨hd, hn⟩ := natural?_eq_some_iff.mp h
  exact fun hrefuses => hrefuses n hn hd

theorem not_refuses_optionalNatural {bound : Nat} {n : Option Nat} {d : Document}
    (h : d.optionalNatural? bound = some n) : ¬ (FieldType.optionalNatural bound).Refuses d := by
  obtain ⟨hd, -⟩ | ⟨m, -, hd, hm⟩ := optionalNatural?_eq_some_iff.mp h
  · exact fun hrefuses => hrefuses.1 hd
  · exact fun hrefuses => hrefuses.2 m hm hd

theorem not_refuses_truth {b : Bool} {d : Document} (h : d.truth? = some b) :
    ¬ FieldType.truth.Refuses d :=
  fun hrefuses => hrefuses b (truth?_eq_some_iff.mp h)

section
variable {α : Type} {fields : List (String × Document)} {name : String} {type : FieldType}
  {read : Document → Option α} (hread : ∀ {d a}, read d = some a → ¬ type.Refuses d)
include hread

theorem kept_of_required {a : α} (h : required fields name read = some a) :
    FieldRule.Kept ⟨name, type, true⟩ fields := by
  obtain ⟨d, hvalues, hd⟩ := required_eq_some_iff.mp h
  exact .inr ⟨d, hvalues, hread hd⟩

theorem kept_of_optional {missing a : α} (h : optional fields name missing read = some a) :
    FieldRule.Kept ⟨name, type, false⟩ fields := by
  obtain ⟨hvalues, -⟩ | ⟨d, hvalues, hd⟩ := optional_eq_some_iff.mp h
  · exact .inl ⟨rfl, hvalues⟩
  · exact .inr ⟨d, hvalues, hread hd⟩

end

/-- Where there is a step, every rule is kept. -/
theorem kept_of_ofFields? {fields : List (String × Document)} {kind : StepKind} {s : Step}
    (h : Step.ofFields? fields kind = some s) : ∀ rule ∈ kind.rules, rule.Kept fields := by
  cases kind <;>
    simp only [Step.ofFields?, Option.bind_eq_bind, Option.bind_eq_some_iff] at h <;>
    simp only [StepKind.rules, List.forall_mem_cons]
  case write =>
    obtain ⟨window, hwindow, cpu, hcpu, offset, hoffset, value, hvalue, width, hwidth, -⟩ := h
    exact ⟨kept_of_required not_refuses_window hwindow, kept_of_required not_refuses_natural hcpu,
      kept_of_required not_refuses_natural hoffset, kept_of_required not_refuses_natural hvalue,
      kept_of_optional not_refuses_natural hwidth,
      List.forall_mem_nil _⟩
  case read =>
    obtain ⟨window, hwindow, cpu, hcpu, offset, hoffset, expect, hexpect, width, hwidth, -⟩ := h
    exact ⟨kept_of_required not_refuses_window hwindow, kept_of_required not_refuses_natural hcpu,
      kept_of_required not_refuses_natural hoffset,
      kept_of_optional not_refuses_optionalNatural hexpect,
      kept_of_optional not_refuses_natural hwidth,
      List.forall_mem_nil _⟩
  case ppi =>
    obtain ⟨cpu, hcpu, index, hindex, level, hlevel, -⟩ := h
    exact ⟨kept_of_required not_refuses_natural hcpu, kept_of_required not_refuses_natural hindex,
      kept_of_required not_refuses_truth hlevel, List.forall_mem_nil _⟩
  case spi =>
    obtain ⟨index, hindex, level, hlevel, -⟩ := h
    exact ⟨kept_of_required not_refuses_natural hindex, kept_of_required not_refuses_truth hlevel,
      List.forall_mem_nil _⟩
  case expectIrq | expectVirq =>
    obtain ⟨cpu, hcpu, level, hlevel, -⟩ := h
    exact ⟨kept_of_required not_refuses_natural hcpu, kept_of_required not_refuses_truth hlevel,
      List.forall_mem_nil _⟩

/-! ### Objects that are no step -/

/-- What is wrong with an object that is no step. -/
inductive Faulty (fields : List (String × Document)) : Prop where
  /-- It names no kind. -/
  | noOp (h : "op" ∉ fields.map Prod.fst)
  /-- It names a kind more than once. -/
  | repeatedOp (h : 2 ≤ (fields.map Prod.fst).count "op")
  /-- It names something that is no kind. -/
  | unknownOp {name : String} (h : ("op", .text name) ∈ fields)
      (hname : ∀ kind : StepKind, kind.name ≠ name)
  /-- It lacks a field that its kind has to have. -/
  | missing {kind : StepKind} {rule : FieldRule} (hop : ("op", .text kind.name) ∈ fields)
      (hrule : rule ∈ kind.rules) (hrequired : rule.required = true)
      (h : rule.name ∉ fields.map Prod.fst)
  /-- It has a field of its kind more than once. -/
  | repeated {kind : StepKind} {name : String} (hop : ("op", .text kind.name) ∈ fields)
      (hname : name ∈ kind.fields) (h : 2 ≤ (fields.map Prod.fst).count name)
  /-- It has a field of its kind with a value that is none of the field. -/
  | refused {kind : StepKind} {rule : FieldRule} {d : Document}
      (hop : ("op", .text kind.name) ∈ fields) (hrule : rule ∈ kind.rules)
      (hd : (rule.name, d) ∈ fields) (h : rule.type.Refuses d)

theorem StepKind.name_injective {a b : StepKind} (h : a.name = b.name) : a = b := by
  revert h
  cases a <;> cases b <;> decide

theorem count_le_one_of_kept {rule : FieldRule} {fields : List (String × Document)}
    (h : rule.Kept fields) : (fields.map Prod.fst).count rule.name ≤ 1 := by
  rw [← length_values]
  obtain ⟨-, hnil⟩ | ⟨d, hd, -⟩ := h
  · rw [hnil]
    exact Nat.zero_le 1
  · rw [hd]
    exact Nat.le_refl 1

/-- A step has one kind, and an object that names it names no other. -/
theorem ofDocument?_object {fields : List (String × Document)} {s : Step}
    (h : Step.ofDocument? (.object fields) = some s) :
    ∃ kind : StepKind, values fields "op" = [.text kind.name]
      ∧ Step.ofFields? fields kind = some s := by
  obtain ⟨kind, hop, h⟩ := Option.bind_eq_some_iff.mp h
  obtain ⟨d, hvalues, hkind⟩ := required_eq_some_iff.mp hop
  obtain rfl := name_of_kind? hkind
  exact ⟨kind, hvalues, h⟩

/-- A faulty object is no step. -/
theorem ofDocument?_of_faulty {fields : List (String × Document)} (h : Faulty fields) :
    Step.ofDocument? (.object fields) = none := by
  rw [Option.eq_none_iff_forall_ne_some]
  intro s hs
  obtain ⟨kind, hop, hfields⟩ := ofDocument?_object hs
  have hkept := kept_of_ofFields? hfields
  have hnamed : ∀ {d}, ("op", d) ∈ fields → d = .text kind.name := by
    intro d hd
    have hmem := mem_values.mpr hd
    rwa [hop, List.mem_singleton] at hmem
  have hsame : ∀ {other : StepKind}, ("op", .text other.name) ∈ fields → other = kind :=
    fun hother => StepKind.name_injective (Document.text.inj (hnamed hother))
  cases h with
  | noOp h =>
    rw [← values_eq_nil_iff, hop] at h
    cases h
  | repeatedOp h =>
    rw [← length_values, hop] at h
    exact absurd h (Nat.not_succ_le_self 1)
  | unknownOp h hname => exact hname kind (Document.text.inj (hnamed h)).symm
  | missing hother hrule hrequired h =>
    obtain rfl := hsame hother
    rw [← values_eq_nil_iff] at h
    obtain ⟨hoptional, -⟩ | ⟨d, hd, -⟩ := hkept _ hrule
    · rw [hrequired] at hoptional
      cases hoptional
    · rw [h] at hd
      cases hd
  | repeated hother hname h =>
    obtain rfl := hsame hother
    rw [← StepKind.map_name_rules] at hname
    obtain ⟨rule, hrule, rfl⟩ := List.mem_map.mp hname
    have := count_le_one_of_kept (hkept rule hrule)
    omega
  | refused hother hrule hd h =>
    obtain rfl := hsame hother
    have hmem := mem_values.mpr hd
    obtain ⟨-, hnil⟩ | ⟨d', hd', hnot⟩ := hkept _ hrule
    · rw [hnil] at hmem
      cases hmem
    · rw [hd', List.mem_singleton] at hmem
      exact hnot (hmem ▸ h)

/-! ### Objects that are a step -/

namespace Step

/-- The kind of a step. -/
def kind : Step → StepKind
  | write .. => .write
  | read .. => .read
  | ppi .. => .ppi
  | spi .. => .spi
  | expectIrq .. => .expectIrq
  | expectVirq .. => .expectVirq

/-- The numbers of a step are in the range that each has. -/
def InRange : Step → Prop
  | write _ cpu offset value width =>
    cpu < 2 ^ 64 ∧ offset < 2 ^ 64 ∧ value < 2 ^ 64 ∧ width < 2 ^ 8
  | read _ cpu offset expect width =>
    cpu < 2 ^ 64 ∧ offset < 2 ^ 64 ∧ (∀ n, expect = some n → n < 2 ^ 64) ∧ width < 2 ^ 8
  | ppi cpu _ _ => cpu < 2 ^ 8
  | spi _ _ => True
  | expectIrq cpu _ => cpu < 2 ^ 64
  | expectVirq cpu _ => cpu < 2 ^ 64

/-- The value of an expectation: null if there is none. -/
def expected : Option Nat → Document
  | none => .null
  | some n => .integer n

/-- The fields of a step with their values. -/
def entries : Step → List (String × Document)
  | write window cpu offset value width =>
    [("interface", .text window.name), ("cpu", .integer cpu), ("offset", .integer offset),
      ("value", .integer value), ("width", .integer width)]
  | read window cpu offset expect width =>
    [("interface", .text window.name), ("cpu", .integer cpu), ("offset", .integer offset),
      ("expect", expected expect), ("width", .integer width)]
  | ppi cpu index level =>
    [("cpu", .integer cpu), ("index", .integer index.toNat), ("level", .bool level)]
  | spi index level => [("index", .integer index.toNat), ("level", .bool level)]
  | expectIrq cpu level => [("cpu", .integer cpu), ("level", .bool level)]
  | expectVirq cpu level => [("cpu", .integer cpu), ("level", .bool level)]

/-- The field can be left out: it is a width of 32 bits or an expectation of nothing. -/
def MayOmit (s : Step) (name : String) : Prop :=
  (name = "width" ∧ (name, .integer 32) ∈ s.entries) ∨ (name = "expect" ∧ (name, .null) ∈ s.entries)

/-- An object is that of a step: it has, in any order, the kind of the step, the fields of the step
but for some that can be left out, and fields whose names mean nothing to the step. -/
def Written (s : Step) (fields : List (String × Document)) : Prop :=
  ∃ given others, given.Sublist s.entries ∧
    (∀ entry ∈ s.entries, entry ∈ given ∨ s.MayOmit entry.1) ∧
    (∀ other ∈ others, other.1 ∉ "op" :: s.kind.fields) ∧
    fields.Perm (("op", .text s.kind.name) :: given ++ others)

theorem map_fst_entries (s : Step) : s.entries.map Prod.fst = s.kind.fields := by
  cases s <;> rfl

theorem nodup_fields (kind : StepKind) : ("op" :: kind.fields).Nodup := by
  cases kind <;> decide

/-- A field of a step has one value. -/
theorem entries_unique {s : Step} {name : String} {d d' : Document} (h : (name, d) ∈ s.entries)
    (h' : (name, d') ∈ s.entries) : d = d' := by
  have hnodup := (List.nodup_cons.mp (nodup_fields s.kind)).2
  rw [← map_fst_entries] at hnodup
  have hd := values_eq_singleton hnodup h
  rw [values_eq_singleton hnodup h'] at hd
  exact (List.singleton_inj.mp hd).symm

end Step

section
variable {s : Step} {fields : List (String × Document)}

/-- What a name means to a step is found in its object as it was given. -/
theorem values_of_written (h : s.Written fields) :
    values fields "op" = [.text s.kind.name] ∧
    ∀ {name d}, (name, d) ∈ s.entries →
      values fields name = [d] ∨ (values fields name = [] ∧ s.MayOmit name) := by
  obtain ⟨given, others, hsub, hgiven, hothers, hperm⟩ := h
  have hnodup := Step.nodup_fields s.kind
  rw [← Step.map_fst_entries] at hnodup hothers
  -- what is given, with the kind in front, has no name twice
  have hown : ((("op", .text s.kind.name) :: given).map Prod.fst : List String).Nodup :=
    hnodup.sublist ((hsub.map Prod.fst).cons_cons "op")
  have hvalues : ∀ {name}, name ∈ "op" :: s.entries.map Prod.fst →
      (values fields name).Perm (values (("op", .text s.kind.name) :: given) name) := by
    intro name hname
    have hnone : values others name = [] := by
      rw [values_eq_nil_iff]
      intro hmem
      obtain ⟨other, hother, rfl⟩ := List.mem_map.mp hmem
      exact hothers other hother hname
    have hall : (values fields name).Perm
        (values (("op", .text s.kind.name) :: given ++ others) name) := values_perm hperm
    rwa [values_append, hnone, List.append_nil] at hall
  constructor
  · have hop := hvalues List.mem_cons_self
    rw [values_eq_singleton hown List.mem_cons_self] at hop
    exact List.perm_singleton.mp hop
  · intro name d hentry
    have hname : name ∈ s.entries.map Prod.fst := List.mem_map_of_mem hentry
    have hvalue := hvalues (List.mem_cons_of_mem _ hname)
    by_cases hname' : name ∈ given.map Prod.fst
    · obtain ⟨⟨_, d'⟩, hd', rfl⟩ := List.mem_map.mp hname'
      obtain rfl := Step.entries_unique (hsub.subset hd') hentry
      rw [values_eq_singleton hown (List.mem_cons_of_mem _ hd')] at hvalue
      exact .inl (List.perm_singleton.mp hvalue)
    · have homit : s.MayOmit name := (hgiven _ hentry).resolve_left fun hmem =>
        hname' (List.mem_map_of_mem hmem)
      have hnot : name ∉ (("op", .text s.kind.name) :: given).map Prod.fst := by
        rw [List.map_cons, List.mem_cons, not_or]
        have hop : name ≠ "op" := fun heq => (List.nodup_cons.mp hnodup).1 (by rwa [← heq])
        exact ⟨hop, hname'⟩
      rw [values_eq_nil_iff.mpr hnot] at hvalue
      exact .inr ⟨List.perm_nil.mp hvalue, homit⟩

theorem required_of_written (h : s.Written fields) {α : Type} {name : String} {d : Document}
    {read : Document → Option α} {a : α} (hentry : (name, d) ∈ s.entries)
    (hname : name ≠ "width" ∧ name ≠ "expect") (hread : read d = some a) :
    required fields name read = some a := by
  obtain hd | ⟨-, homit⟩ := (values_of_written h).2 hentry
  · exact required_eq_some_iff.mpr ⟨d, hd, hread⟩
  · rcases homit with ⟨hwidth, -⟩ | ⟨hexpect, -⟩
    · exact absurd hwidth hname.1
    · exact absurd hexpect hname.2

theorem window_of_written (h : s.Written fields) {window : Interface}
    (hentry : ("interface", .text window.name) ∈ s.entries) :
    required fields "interface" window? = some window :=
  required_of_written h hentry (by decide) (window?_text window)

theorem natural_of_written (h : s.Written fields) {name : String} {bound n : Nat}
    (hentry : (name, .integer n) ∈ s.entries) (hname : name ≠ "width" ∧ name ≠ "expect")
    (hn : n < bound) : required fields name (natural? bound) = some n :=
  required_of_written h hentry hname (natural?_eq_some_iff.mpr ⟨rfl, hn⟩)

theorem level_of_written (h : s.Written fields) {level : Bool}
    (hentry : ("level", .bool level) ∈ s.entries) :
    required fields "level" truth? = some level :=
  required_of_written h hentry (by decide) (truth?_eq_some_iff.mpr rfl)

theorem width_of_written (h : s.Written fields) {width : Nat}
    (hentry : ("width", .integer width) ∈ s.entries) (hwidth : width < 1 <<< 8) :
    optional fields "width" 32 (natural? (1 <<< 8)) = some width := by
  rw [optional_eq_some_iff]
  obtain hd | ⟨hnil, homit⟩ := (values_of_written h).2 hentry
  · exact .inr ⟨_, hd, natural?_eq_some_iff.mpr ⟨rfl, hwidth⟩⟩
  · rcases homit with ⟨-, hdefault⟩ | ⟨hexpect, -⟩
    · have hwidth32 := Document.integer.inj (Step.entries_unique hdefault hentry)
      exact .inl ⟨hnil, by omega⟩
    · exact absurd hexpect (by decide)

theorem expect_of_written (h : s.Written fields) {expect : Option Nat}
    (hentry : ("expect", Step.expected expect) ∈ s.entries)
    (hexpect : ∀ n, expect = some n → n < 1 <<< 64) :
    optional fields "expect" none (optionalNatural? (1 <<< 64)) = some expect := by
  rw [optional_eq_some_iff]
  cases expect with
  | none =>
    obtain hd | ⟨hnil, -⟩ := (values_of_written h).2 hentry
    · exact .inr ⟨_, hd, rfl⟩
    · exact .inl ⟨hnil, rfl⟩
  | some n =>
    obtain hd | ⟨-, homit⟩ := (values_of_written h).2 hentry
    · exact .inr ⟨_, hd, optionalNatural?_eq_some_iff.mpr (.inr ⟨n, rfl, rfl, hexpect n rfl⟩)⟩
    · rcases homit with ⟨hwidth, -⟩ | ⟨-, hnull⟩
      · exact absurd hwidth (by decide)
      · cases Step.entries_unique hnull hentry

/-- The fields of a step are found under their names. -/
theorem ofFields?_of_written (hs : s.InRange) (h : s.Written fields) :
    Step.ofFields? fields s.kind = some s := by
  cases s with
  | write window cpu offset value width =>
    obtain ⟨hcpu, hoffset, hvalue, hwidth⟩ := hs
    have hwindow : required fields "interface" window? = some window :=
      window_of_written h (by simp [Step.entries])
    have hcpu : required fields "cpu" (natural? (1 <<< 64)) = some cpu :=
      natural_of_written h (by simp [Step.entries]) (by decide) hcpu
    have hoffset : required fields "offset" (natural? (1 <<< 64)) = some offset :=
      natural_of_written h (by simp [Step.entries]) (by decide) hoffset
    have hvalue : required fields "value" (natural? (1 <<< 64)) = some value :=
      natural_of_written h (by simp [Step.entries]) (by decide) hvalue
    have hwidth := width_of_written h (by simp [Step.entries]) hwidth
    simp only [Step.kind, Step.ofFields?, hwindow, hcpu, hoffset, hvalue, hwidth]
    rfl
  | read window cpu offset expect width =>
    obtain ⟨hcpu, hoffset, hexpect, hwidth⟩ := hs
    have hwindow : required fields "interface" window? = some window :=
      window_of_written h (by simp [Step.entries])
    have hcpu : required fields "cpu" (natural? (1 <<< 64)) = some cpu :=
      natural_of_written h (by simp [Step.entries]) (by decide) hcpu
    have hoffset : required fields "offset" (natural? (1 <<< 64)) = some offset :=
      natural_of_written h (by simp [Step.entries]) (by decide) hoffset
    have hexpect := expect_of_written h (by simp [Step.entries]) hexpect
    have hwidth := width_of_written h (by simp [Step.entries]) hwidth
    simp only [Step.kind, Step.ofFields?, hwindow, hcpu, hoffset, hexpect, hwidth]
    rfl
  | ppi cpu index level =>
    have hcpu : required fields "cpu" (natural? (1 <<< 8)) = some cpu :=
      natural_of_written h (by simp [Step.entries]) (by decide) hs
    have hindex : required fields "index" (natural? (1 <<< 16)) = some index.toNat :=
      natural_of_written h (by simp [Step.entries]) (by decide) index.isLt
    have hlevel : required fields "level" truth? = some level :=
      level_of_written h (by simp [Step.entries])
    simp only [Step.kind, Step.ofFields?, hcpu, hindex, hlevel, Option.bind_eq_bind,
      Option.bind_some, BitVec.ofNat_toNat, BitVec.setWidth_eq]
    rfl
  | spi index level =>
    have hindex : required fields "index" (natural? (1 <<< 16)) = some index.toNat :=
      natural_of_written h (by simp [Step.entries]) (by decide) index.isLt
    have hlevel : required fields "level" truth? = some level :=
      level_of_written h (by simp [Step.entries])
    simp only [Step.kind, Step.ofFields?, hindex, hlevel, Option.bind_eq_bind, Option.bind_some,
      BitVec.ofNat_toNat, BitVec.setWidth_eq]
    rfl
  | expectIrq cpu level =>
    have hcpu : required fields "cpu" (natural? (1 <<< 64)) = some cpu :=
      natural_of_written h (by simp [Step.entries]) (by decide) hs
    have hlevel : required fields "level" truth? = some level :=
      level_of_written h (by simp [Step.entries])
    simp only [Step.kind, Step.ofFields?, hcpu, hlevel]
    rfl
  | expectVirq cpu level =>
    have hcpu : required fields "cpu" (natural? (1 <<< 64)) = some cpu :=
      natural_of_written h (by simp [Step.entries]) (by decide) hs
    have hlevel : required fields "level" truth? = some level :=
      level_of_written h (by simp [Step.entries])
    simp only [Step.kind, Step.ofFields?, hcpu, hlevel]
    rfl

/-- A step is read from every object that is one of it. -/
theorem ofDocument?_of_written (hs : s.InRange) (h : s.Written fields) :
    Step.ofDocument? (.object fields) = some s := by
  have hop : required fields "op" kind? = some s.kind :=
    required_eq_some_iff.mpr ⟨_, (values_of_written h).1, kind?_text s.kind⟩
  rw [Step.ofDocument?, hop, Option.bind_some]
  exact ofFields?_of_written hs h

end

/-! ### Scripts -/

namespace Document

theorem depthOfItems_le {items : List Document} {bound : Nat} (h : ∀ d ∈ items, d.depth ≤ bound) :
    depthOfItems items ≤ bound := by
  induction items with
  | nil => exact Nat.zero_le _
  | cons d items ih =>
    obtain ⟨hd, h⟩ := List.forall_mem_cons.mp h
    exact Nat.max_le.mpr ⟨hd, ih h⟩

theorem depthOfFields_le {fields : List (String × Document)} {bound : Nat}
    (h : ∀ f ∈ fields, f.2.depth ≤ bound) : depthOfFields fields ≤ bound := by
  induction fields with
  | nil => exact Nat.zero_le _
  | cons f fields ih =>
    obtain ⟨hf, h⟩ := List.forall_mem_cons.mp h
    exact Nat.max_le.mpr ⟨hf, ih h⟩

theorem integersFitInItems {items : List Document} (h : ∀ d ∈ items, d.IntegersFit) :
    IntegersFitInItems items := by
  induction items with
  | nil => trivial
  | cons d items ih =>
    obtain ⟨hd, h⟩ := List.forall_mem_cons.mp h
    exact ⟨hd, ih h⟩

theorem integersFitInFields {fields : List (String × Document)}
    (h : ∀ f ∈ fields, f.2.IntegersFit) : IntegersFitInFields fields := by
  induction fields with
  | nil => trivial
  | cons f fields ih =>
    obtain ⟨hf, h⟩ := List.forall_mem_cons.mp h
    exact ⟨hf, ih h⟩

end Document

namespace Script

/-- The document of a script whose steps are these objects. -/
def document (elements : List (List (String × Document))) : Document :=
  .array (elements.map .object)

theorem ofDocument?_document {steps : Script} {elements : List (List (String × Document))}
    (hsteps : ∀ s ∈ steps, s.InRange) (h : List.Forall₂ Step.Written steps elements) :
    Script.ofDocument? (document elements) = some steps := by
  rw [document, Script.ofDocument?]
  induction h with
  | nil => rfl
  | cons hs _ ih =>
    obtain ⟨hs', hsteps⟩ := List.forall_mem_cons.mp hsteps
    rw [List.map_cons, List.mapM_cons, ofDocument?_of_written hs' hs, ih hsteps]
    rfl

theorem mapM_eq_none {α β : Type} {f : α → Option β} {l : List α} {a : α} (ha : a ∈ l)
    (h : f a = none) : l.mapM f = none := by
  induction l with
  | nil => cases ha
  | cons b l ih =>
    rw [List.mapM_cons]
    cases hb : f b with
    | none => rfl
    | some c =>
      obtain rfl | ha := List.mem_cons.mp ha
      · rw [h] at hb
        cases hb
      · rw [ih ha]
        rfl

/-- A script of which one element is faulty has no steps at all. -/
theorem ofDocument?_of_faulty {items : List Document} {fields : List (String × Document)}
    (hmem : .object fields ∈ items) (h : Faulty fields) :
    Script.ofDocument? (.array items) = none :=
  mapM_eq_none hmem (Gic.ofDocument?_of_faulty h)

theorem depth_document_le {elements : List (List (String × Document))}
    (h : ∀ fields ∈ elements, ∀ f ∈ fields, f.2.depth < 100) :
    (document elements).depth ≤ maxNesting := by
  have hobject : ∀ d ∈ elements.map Document.object, d.depth ≤ 100 := by
    intro d hd
    obtain ⟨fields, hfields, rfl⟩ := List.mem_map.mp hd
    exact Nat.succ_le_succ (depthOfFields_le fun f hf => Nat.le_of_lt_succ (h fields hfields f hf))
  calc (document elements).depth ≤ 100 + 1 := Nat.succ_le_succ (depthOfItems_le hobject)
    _ ≤ maxNesting := by decide

theorem integersFit_document {elements : List (List (String × Document))}
    (h : ∀ fields ∈ elements, ∀ f ∈ fields, f.2.IntegersFit) :
    (document elements).IntegersFit := by
  apply integersFitInItems
  intro d hd
  obtain ⟨fields, hfields, rfl⟩ := List.mem_map.mp hd
  exact integersFitInFields (h fields hfields)

/-- Scripts decode by field name, completely or not at all. Objects of steps, one for each, decode
to these steps; so does every text that spells them, and there is one. If an element is faulty,
there are no steps, and no text of the script is accepted. -/
theorem decode_by_field_name :
    (∀ (steps : Script) (elements : List (List (String × Document))),
      (∀ s ∈ steps, s.InRange) → List.Forall₂ Step.Written steps elements →
      Script.ofDocument? (document elements) = some steps ∧
      ((∀ fields ∈ elements, ∀ f ∈ fields, f.2.depth < 100) →
        ∀ input, Spells input (document elements) → Script.ofText input = .ok steps) ∧
      ((∀ fields ∈ elements, ∀ f ∈ fields, f.2.IntegersFit) →
        ∃ input, Spells input (document elements))) ∧
    (∀ (items : List Document) (fields : List (String × Document)),
      .object fields ∈ items → Faulty fields →
      Script.ofDocument? (.array items) = none ∧
      ∀ input, Spells input (.array items) → Script.ofText input = .error .malformed) := by
  refine ⟨fun steps elements hsteps hwritten => ?_, fun items fields hmem hfaulty => ?_⟩
  · have hdecode := ofDocument?_document hsteps hwritten
    refine ⟨hdecode, fun hflat input hinput => ?_, fun hfit => ?_⟩
    · rw [Script.ofText, ofText?_of_spells hinput, if_pos (depth_document_le hflat),
        Option.bind_some, hdecode]
    · exact exists_spells (integersFit_document hfit)
  · have hdecode := ofDocument?_of_faulty hmem hfaulty
    refine ⟨hdecode, fun input hinput => ?_⟩
    rw [Script.ofText, ofText?_of_spells hinput]
    split_ifs
    · rw [Option.bind_some, hdecode]
    · rfl

/-- Two steps whose objects are written from the last field to the first: a read without width whose
expectation is null, and a private input with a field that means nothing to it. With a third one
for a CPU out of range, there are no steps. -/
theorem decode_by_field_name_reversed :
    let steps : Script := [.read .cpuInterface 0 12 none 32, .ppi 255 3 true]
    let elements : List (List (String × Document)) :=
      [[("op", .text "read"), ("interface", .text "cpu_interface"), ("cpu", .integer 0),
          ("offset", .integer 12), ("expect", .null)].reverse,
        [("op", .text "ppi"), ("cpu", .integer 255), ("index", .integer 3), ("level", .bool true),
          ("width", .array [.object [("width", .integer (-1))], .text ""])].reverse]
    let misfit : List (String × Document) :=
      [("op", .text "ppi"), ("cpu", .integer 256), ("index", .integer 3), ("level", .bool true)]
    Script.ofDocument? (document elements) = some steps ∧
      (∃ input, Spells input (document elements) ∧ Script.ofText input = .ok steps) ∧
      Script.ofDocument? (document (elements ++ [misfit])) = none := by
  intro steps elements misfit
  have hsteps : ∀ s ∈ steps, s.InRange := by
    simp only [steps, List.forall_mem_cons]
    have hcpu : (255 : Nat) < 2 ^ 8 := by decide
    exact ⟨⟨by decide, by decide, by simp, by decide⟩, hcpu, List.forall_mem_nil _⟩
  have hread : (Step.read .cpuInterface 0 12 none 32).Written
      [("op", .text "read"), ("interface", .text "cpu_interface"), ("cpu", .integer 0),
          ("offset", .integer 12), ("expect", .null)].reverse := by
    refine ⟨[("interface", .text "cpu_interface"), ("cpu", .integer 0), ("offset", .integer 12),
      ("expect", .null)], [], ?_, ?_, List.forall_mem_nil _, List.reverse_perm _⟩
    · exact List.sublist_append_left _ [("width", Document.integer 32)]
    · simp [Step.entries, Step.expected, Step.MayOmit, Interface.name]
  have hppi : (Step.ppi 255 3 true).Written
      [("op", .text "ppi"), ("cpu", .integer 255), ("index", .integer 3), ("level", .bool true),
          ("width", .array [.object [("width", .integer (-1))], .text ""])].reverse :=
    ⟨_, [("width", .array [.object [("width", .integer (-1))], .text ""])], List.Sublist.refl _,
      fun entry hentry => .inl hentry, by simp [Step.kind, StepKind.fields], List.reverse_perm _⟩
  have hrule : (⟨"cpu", .natural (2 ^ 8), true⟩ : FieldRule) ∈ StepKind.ppi.rules :=
    List.mem_cons_self
  have hmisfit : Faulty misfit := by
    refine .refused List.mem_cons_self hrule (.tail _ List.mem_cons_self) fun n hn heq => ?_
    have hn' := Document.integer.inj heq
    omega
  obtain ⟨hdecode, htexts, hexists⟩ :=
    decode_by_field_name.1 steps elements hsteps (.cons hread (.cons hppi .nil))
  have hflat : ∀ fields ∈ elements, ∀ f ∈ fields, f.2.depth < 100 := by
    simp only [elements, List.reverse_cons, List.reverse_nil, List.nil_append, List.cons_append,
      List.forall_mem_cons]
    simp [depth, depthOfItems, depthOfFields]
  have hfit : ∀ fields ∈ elements, ∀ f ∈ fields, f.2.IntegersFit := by
    simp only [elements, List.reverse_cons, List.reverse_nil, List.nil_append, List.cons_append,
      List.forall_mem_cons]
    simp [IntegersFit, IntegersFitInItems, IntegersFitInFields]
  obtain ⟨input, hinput⟩ := hexists hfit
  refine ⟨hdecode, ⟨input, hinput, htexts hflat input hinput⟩, ?_⟩
  exact (decode_by_field_name.2 _ misfit (by simp [elements]) hmisfit).1

end Script

end Gic
