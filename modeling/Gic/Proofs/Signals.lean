import Gic.Proofs.ActionLines
import Gic.Proofs.BoardRun

/-!
# The changes that are drained tell the lines

A CPU that listens to its lines sees no levels: it drains changes from a bounded
queue. One change that is missed or told twice would leave it with the wrong
level for good. This module shows that the changes tell the lines, and what is
left of that when the queue overflows.

## The model

* `Tells` — levels alternate, beginning with high, and end with the level of the
  line.
* `HasRoom`, `Roomy` — the queue is not full whenever a line changes, in an action
  and in a run.
* `Emptied` — a run that has just drained the queue, or has not begun.
* `SameButDrains` — two runs that differ in when they drain only.
* `TellsLines` — all that the drains of a board tell of its lines.

## What is proved

* `tells_published` — all changes that are published in a run, whether they fit or
  not, tell every line.
* `conserved` — in a run with room for all of them, what was drained and what still
  waits is what was published.
* `waiting_since_drain` — in every run, what waits is the oldest of what was
  published since the last drain.
* `controller_undisturbed` — the queue does not act back on the controller.
* `signals_tell_lines` — put together, for every board.
-/

namespace Gic

/-! ### Levels of a line -/

/-- The levels that a line was given tell its level: they alternate, beginning with high, and the
last one is the level now, which is low if there is none. -/
structure Tells (levels : List Bool) (line : Bool) : Prop where
  /-- The levels alternate, beginning with high. -/
  alternates : ∀ n level, levels[n]? = some level → level = decide (n % 2 = 0)
  /-- The last one is the level of the line. -/
  last : line = levels.getLast?.getD false

theorem tells_nil : Tells [] false where
  alternates n _ h := by cases h
  last := rfl

/-- The level follows from how often it was changed. -/
theorem Tells.parity {levels : List Bool} {line : Bool} (h : Tells levels line) :
    line = decide (levels.length % 2 = 1) := by
  rcases List.eq_nil_or_concat levels with rfl | ⟨before, level, rfl⟩
  · exact h.last
  · rw [List.concat_eq_append] at h ⊢
    have hlevel := h.alternates before.length level List.getElem?_concat_length
    rw [h.last, List.getLast?_concat, Option.getD_some, hlevel, List.length_append,
      List.length_singleton, decide_eq_decide]
    omega

/-- One more level is told if the level of the line changes. -/
theorem Tells.next {levels : List Bool} {line : Bool} (h : Tells levels line) (level : Bool) :
    Tells (levels ++ if level = line then [] else [level]) level := by
  by_cases hsame : level = line
  · rw [if_pos hsame, List.append_nil, hsame]
    exact h
  · rw [if_neg hsame]
    refine ⟨fun n other hn => ?_, by rw [List.getLast?_concat, Option.getD_some]⟩
    rcases Nat.lt_trichotomy n levels.length with hlt | rfl | hgt
    · rw [List.getElem?_append_left hlt] at hn
      exact h.alternates n other hn
    · rw [List.getElem?_concat_length] at hn
      obtain rfl := Option.some.inj hn
      -- The new level is not the one that the number of changes so far gives.
      have hparity := h.parity
      rw [Bool.eq_not_of_ne hsame, hparity, Bool.eq_iff_iff, Bool.not_eq_true',
        decide_eq_false_iff_not, decide_eq_true_eq]
      omega
    · rw [List.getElem?_eq_none (by rw [List.length_append, List.length_singleton]; omega)] at hn
      cases hn

namespace Controller

variable {cfg : Config} {cpu : Nat} {kind : LineKind}

/-- What an action publishes tells a line further. -/
theorem tells_step {g : Controller cfg} {levels : List Bool}
    (h : Tells levels (g.line cpu kind)) (a : Action) :
    Tells (levels ++ levelsOf cpu kind (g.step a).changes) ((g.after a).line cpu kind) := by
  rw [levelsOf_step]
  exact h.next _

/-- What a run publishes tells a line further. -/
theorem tells_run {g : Controller cfg} {levels : List Bool}
    (h : Tells levels (g.line cpu kind)) (actions : List Action) :
    Tells (levels ++ levelsOf cpu kind (g.published actions))
      ((g.run actions).line cpu kind) := by
  induction actions generalizing g levels with
  | nil =>
    rw [published, levelsOf, List.filterMap_nil, List.append_nil]
    exact h
  | cons a rest ih =>
    rw [published, levelsOf_append, ← List.append_assoc]
    exact ih (tells_step h a)

end Controller

namespace Board

variable {cfg : Config}

/-! ### What is published tells the lines -/

/-- What a run of a board publishes tells every line further. -/
theorem tells_published {b : Board cfg} (hb : b.Wired) {cpu : Nat} {kind : LineKind}
    {levels : List Bool} (h : Tells levels (b.controller.line cpu kind))
    (actions : List BoardAction) :
    Tells (levels ++ levelsOf cpu kind (b.published actions))
      ((b.afterAll actions).controller.line cpu kind) := by
  induction actions generalizing b levels with
  | nil =>
    rw [published, levelsOf, List.filterMap_nil, List.append_nil]
    exact h
  | cons a rest ih =>
    have hstep := Controller.tells_run h (b.asks a)
    rw [← controller_after hb] at hstep
    rw [published, levelsOf_append, ← List.append_assoc]
    exact ih (hb.after a) hstep

/-- All actions but a delivery of queued changes of inputs ask for one thing at most. -/
theorem asks_single (b : Board cfg) {a : BoardAction} (ha : a ≠ .receive) :
    b.asks a = [] ∨ ∃ action, b.asks a = [action] := by
  cases a with
  | read i address width | write i address value width =>
    unfold asks
    dsimp only
    cases b.map.find? address with
    | none => exact .inl rfl
    | some r => exact .inr ⟨_, rfl⟩
  | direct action => exact .inr ⟨action, rfl⟩
  | receive => exact absurd rfl ha
  | queue r | drain => exact .inl rfl

/-- Such an action publishes a line once if its level changes, and not at all otherwise. -/
theorem levelsOf_published {b : Board cfg} (hb : b.Wired) {a : BoardAction} (ha : a ≠ .receive)
    (cpu : Nat) (kind : LineKind) :
    levelsOf cpu kind (b.published [a]) =
      if (b.after a).controller.line cpu kind = b.controller.line cpu kind then []
      else [(b.after a).controller.line cpu kind] := by
  rw [published, published, List.append_nil, controller_after hb]
  obtain hnone | ⟨action, hone⟩ := b.asks_single ha
  · rw [hnone]
    exact (if_pos rfl).symm
  · rw [hone, Controller.published_singleton]
    exact Controller.levelsOf_step b.controller action cpu kind

/-! ### What is drained -/

/-- Whenever an action changes a line, fewer changes wait than fit: those that waited before and
those that the action has published already. -/
def HasRoom (b : Board cfg) (a : BoardAction) : Prop :=
  ∀ before change rest, b.published [a] = before ++ change :: rest →
    (b.plumbing.waiting ++ before).length < changeCapacity

/-- Whenever a line changes in a run, fewer changes wait than fit. -/
def Roomy (b : Board cfg) (actions : List BoardAction) : Prop :=
  ∀ before a rest, actions = before ++ a :: rest → (b.afterAll before).HasRoom a

theorem Roomy.cons {b : Board cfg} {a : BoardAction} {rest : List BoardAction}
    (h : b.Roomy (a :: rest)) : b.HasRoom a ∧ (b.after a).Roomy rest := by
  constructor
  · exact h [] a rest rfl
  · intro before c rest' hrest
    exact h (a :: before) c rest' (by rw [hrest, List.cons_append])

/-- With room, everything that is published waits. -/
theorem HasRoom.waiting_after {b : Board cfg} (hb : b.Wired) {a : BoardAction} (h : b.HasRoom a)
    (ha : a ≠ .drain) :
    (b.after a).plumbing.waiting = b.plumbing.waiting ++ b.published [a] := by
  rw [Board.waiting_after hb ha, List.take_of_length_le]
  rcases List.eq_nil_or_concat (b.published [a]) with hnone | ⟨before, change, hlast⟩
  · rw [hnone, List.append_nil]
    exact b.plumbing.changes.length_le
  · rw [List.concat_eq_append] at hlast
    have hroom := h before change [] hlast
    rw [hlast, ← List.append_assoc, List.length_append, List.length_singleton]
    exact hroom

/-- With room, what was drained and what waits is what waited before and what was published. -/
theorem conserved {b : Board cfg} (hb : b.Wired) {actions : List BoardAction}
    (h : b.Roomy actions) :
    b.drained actions ++ (b.afterAll actions).plumbing.waiting =
      b.plumbing.waiting ++ b.published actions := by
  induction actions generalizing b with
  | nil => exact (List.append_nil _).symm
  | cons a rest ih =>
    obtain ⟨hroom, hrest⟩ := h.cons
    have hih := ih (hb.after a) hrest
    have hpublished := b.published_append [a] rest
    rw [List.singleton_append] at hpublished
    rw [drained, List.append_assoc, hpublished]
    show _ ++ ((b.after a).drained rest ++ ((b.after a).afterAll rest).plumbing.waiting) = _
    rw [hih]
    by_cases hdrain : a = .drain
    · subst hdrain
      rw [if_pos rfl, waiting_after_drain]
      rfl
    · rw [if_neg hdrain, hroom.waiting_after hb hdrain, List.nil_append, List.append_assoc]
      rfl

/-- There is room if no more is published in the whole run than fits. -/
theorem roomy_of_length {b : Board cfg} (hb : b.Wired) {actions : List BoardAction}
    (h : (b.plumbing.waiting ++ b.published actions).length ≤ changeCapacity) :
    b.Roomy actions := by
  induction actions generalizing b with
  | nil =>
    intro before a rest hsplit
    cases before <;> cases hsplit
  | cons a rest ih =>
    have hpublished := b.published_append [a] rest
    rw [List.singleton_append] at hpublished
    rw [hpublished, ← List.append_assoc, List.length_append] at h
    have hroom : b.HasRoom a := by
      intro before change rest' hsplit
      rw [hsplit, ← List.append_assoc, List.length_append, List.length_cons] at h
      omega
    intro before c rest' hsplit
    cases before with
    | nil =>
      cases hsplit
      exact hroom
    | cons first before =>
      obtain ⟨rfl, hrest⟩ := List.cons.inj hsplit
      refine ih (hb.after a) ?_ before c rest' hrest
      have hwaiting : (b.after a).plumbing.waiting.length ≤
          (b.plumbing.waiting ++ b.published [a]).length := by
        by_cases hdrain : a = .drain
        · rw [hdrain, waiting_after_drain]
          exact Nat.zero_le _
        · exact Nat.le_of_eq (congrArg List.length (hroom.waiting_after hb hdrain))
      rw [List.length_append]
      exact Nat.le_trans (Nat.add_le_add_right hwaiting _) h

/-- A run that has not begun, or has just drained the changes. -/
def Emptied (actions : List BoardAction) : Prop :=
  actions = [] ∨ ∃ before, actions = before ++ [.drain]

theorem Emptied.waiting {b : Board cfg} (hb : b.plumbing.waiting = []) {actions : List BoardAction}
    (h : Emptied actions) : (b.afterAll actions).plumbing.waiting = [] := by
  obtain rfl | ⟨before, rfl⟩ := h
  · exact hb
  · rw [afterAll_concat, waiting_after_drain]

/-- In a run without drains, the oldest changes wait that fit. -/
theorem waiting_since_drain {b : Board cfg} (hb : b.Wired) {actions : List BoardAction}
    (h : .drain ∉ actions) :
    (b.afterAll actions).plumbing.waiting =
      (b.plumbing.waiting ++ b.published actions).take changeCapacity := by
  induction actions generalizing b with
  | nil =>
    rw [published, List.append_nil, List.take_of_length_le]
    · rfl
    · exact b.plumbing.changes.length_le
  | cons a rest ih =>
    have ha := List.ne_of_not_mem_cons h
    have hrest := List.not_mem_of_not_mem_cons h
    have hpublished := b.published_append [a] rest
    rw [List.singleton_append] at hpublished
    have hih := ih (hb.after a) hrest
    rw [waiting_after hb (Ne.symm ha), Queue.take_append_take, List.append_assoc] at hih
    rw [hpublished]
    exact hih

/-! ### The queue does not act back -/

/-- The board with other changes that wait. -/
def withChanges (b : Board cfg) (changes : Queue changeCapacity LineChange) : Board cfg :=
  { b with plumbing := { b.plumbing with changes } }

/-- An action does the same whatever waits, but for what waits afterwards. -/
theorem after_withChanges {b : Board cfg} (hb : b.Wired) (changes : Queue changeCapacity LineChange)
    (a : BoardAction) :
    ∃ changes', (b.withChanges changes).after a = (b.after a).withChanges changes' := by
  have hopen : (b.withChanges changes).plumbing.isOpen = true := hb.isOpen
  rw [after_eq hb.isOpen, after_eq hopen]
  cases a <;> exact ⟨_, rfl⟩

/-- A run does the same whatever waits at its beginning, but for what waits at its end. -/
theorem afterAll_withChanges {b : Board cfg} (hb : b.Wired)
    (changes : Queue changeCapacity LineChange) (actions : List BoardAction) :
    ∃ changes', (b.withChanges changes).afterAll actions =
      (b.afterAll actions).withChanges changes' := by
  induction actions generalizing b changes with
  | nil => exact ⟨changes, rfl⟩
  | cons a rest ih =>
    obtain ⟨next, hnext⟩ := after_withChanges hb changes a
    obtain ⟨last, hlast⟩ := ih (hb.after a) next
    refine ⟨last, ?_⟩
    show ((b.withChanges changes).after a).afterAll rest = _
    rw [hnext, hlast]
    rfl

/-- Two runs differ in when they drain only. -/
def SameButDrains (first second : List BoardAction) : Prop :=
  first.filter (· ≠ .drain) = second.filter (· ≠ .drain)

/-- Without its drains a run does the same to the controller. -/
theorem controller_without_drains {b : Board cfg} (hb : b.Wired) (actions : List BoardAction) :
    (b.afterAll (actions.filter (· ≠ .drain))).controller = (b.afterAll actions).controller := by
  induction actions generalizing b with
  | nil => rfl
  | cons a rest ih =>
    by_cases hdrain : a = .drain
    · subst hdrain
      obtain ⟨changes, hchanges⟩ := afterAll_withChanges hb .empty rest
      have hdrained := congrArg controller hchanges
      rw [List.filter_cons_of_neg (by simp), ih hb]
      exact hdrained.symm
    · rw [List.filter_cons_of_pos (by simp [hdrain])]
      exact ih (hb.after a)

/-- What the controller does depends neither on what waits nor on when it is drained. -/
theorem controller_undisturbed {b : Board cfg} (hb : b.Wired)
    (changes : Queue changeCapacity LineChange) {first second : List BoardAction}
    (h : SameButDrains first second) :
    ((b.withChanges changes).afterAll first).controller = (b.afterAll second).controller := by
  obtain ⟨changes', hchanges⟩ := afterAll_withChanges hb changes first
  calc ((b.withChanges changes).afterAll first).controller
      = ((b.afterAll first).withChanges changes').controller := congrArg controller hchanges
    _ = (b.afterAll (first.filter (· ≠ .drain))).controller :=
        (controller_without_drains hb first).symm
    _ = (b.afterAll (second.filter (· ≠ .drain))).controller := by rw [h]
    _ = (b.afterAll second).controller := controller_without_drains hb second

/-- What the drains of a board that was just built tell of its lines. -/
structure TellsLines (b : Board cfg) : Prop where
  /-- As long as there is room whenever a line changes, the changes that were drained and those that
  wait tell every line. -/
  told : ∀ actions, b.Roomy actions → ∀ cpu kind,
    Tells (levelsOf cpu kind (b.drained actions ++ (b.afterAll actions).plumbing.waiting))
      ((b.afterAll actions).controller.line cpu kind)
  /-- In every run a drain returns the first of the changes that were published since the drain
  before, as many as fit. -/
  drains : ∀ before actions, Emptied before → .drain ∉ actions →
    (b.afterAll (before ++ actions)).drain.1 =
      ((b.afterAll before).published actions).take changeCapacity
  /-- In every run the changes that were published, dropped or not, tell every line. -/
  published : ∀ actions cpu kind,
    Tells (levelsOf cpu kind (b.published actions)) ((b.afterAll actions).controller.line cpu kind)
  /-- At every point of a run, the controller goes on in the same way whatever waits and whenever
  the changes are drained, so also if none has to be dropped. -/
  undisturbed : ∀ before changes first second, SameButDrains first second →
    (((b.afterAll before).withChanges changes).afterAll first).controller =
      ((b.afterAll before).afterAll second).controller
  /-- An action that is not a delivery of queued changes of inputs publishes a line once if its
  level changes, and not at all otherwise. -/
  once : ∀ before a, a ≠ .receive → ∀ cpu kind,
    levelsOf cpu kind ((b.afterAll before).published [a]) =
      if ((b.afterAll before).after a).controller.line cpu kind =
          (b.afterAll before).controller.line cpu kind then []
      else [((b.afterAll before).after a).controller.line cpu kind]

/-- The changes that are drained from a board tell the lines of its controller. -/
theorem signals_tell_lines {b : Board cfg} (h : build cfg = .ok b) : b.TellsLines := by
  obtain ⟨hwired, hcontroller, hwaiting⟩ := wired_of_build h
  have hpublished : ∀ actions cpu kind, Tells (levelsOf cpu kind (b.published actions))
      ((b.afterAll actions).controller.line cpu kind) := by
    intro actions cpu kind
    have hstart : Tells [] (b.controller.line cpu kind) := by
      rw [hcontroller, Controller.line_powerOn]
      exact tells_nil
    exact tells_published hwired hstart actions
  exact {
    told := by
      intro actions hroomy cpu kind
      rw [conserved hwired hroomy, hwaiting, List.nil_append]
      exact hpublished actions cpu kind
    drains := by
      intro before actions hbefore hactions
      have hsince := waiting_since_drain (hwired.afterAll before) hactions
      rw [hbefore.waiting hwaiting, List.nil_append, ← afterAll_append] at hsince
      exact hsince
    published := hpublished
    undisturbed := fun before changes _ _ hsame =>
      controller_undisturbed (hwired.afterAll before) changes hsame
    once := fun before _ ha cpu kind => levelsOf_published (hwired.afterAll before) ha cpu kind }

set_option maxRecDepth 20000 in
/-- Shared input 32 of one CPU goes high, the changes are drained, and the input goes low. -/
theorem signals_tell_lines_pulse :
    let b : Board Config.standard :=
      { controller := .powerOn Config.standard
        map := ⟨(windowRegions Config.standard).toArray⟩
        plumbing := { (Plumbing.new : Plumbing Unit) with subscribers := [(0, ())] } }
    let actions : List BoardAction :=
      [.direct (.write .distributor (.cpu 0) 0x000 1 .word),
        .direct (.write .cpuInterface (.cpu 0) 0x000 1 .word),
        .direct (.write .cpuInterface (.cpu 0) 0x004 0xf0 .word),
        .direct (.write .distributor (.cpu 0) 0x104 1 .word),
        .direct (.write .distributor (.cpu 0) 0x820 1 .byte),
        .direct (.spi 0 true), .drain, .direct (.spi 0 false)]
    build Config.standard = .ok b ∧ b.Roomy actions ∧
      b.drained actions = [⟨0, .irq, true⟩] ∧
      (b.afterAll actions).plumbing.waiting = [⟨0, .irq, false⟩] ∧
      Tells [true, false] ((b.afterAll actions).controller.line 0 .irq) := by
  intro b actions
  have hb : build Config.standard = .ok b := rfl
  obtain ⟨hlength, hdrained, hwaiting⟩ :
      (b.plumbing.waiting ++ b.published actions).length ≤ changeCapacity ∧
        b.drained actions = [⟨0, .irq, true⟩] ∧
        (b.afterAll actions).plumbing.waiting = [⟨0, .irq, false⟩] := by decide +kernel
  have hroomy : b.Roomy actions := roomy_of_length (wired_of_build hb).1 hlength
  have htold := (signals_tell_lines hb).told actions hroomy 0 .irq
  rw [hdrained, hwaiting] at htold
  exact ⟨hb, hroomy, hdrained, hwaiting, htold⟩

end Board

end Gic
