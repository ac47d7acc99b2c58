import Gic.Proofs.Decoding
import Gic.Proofs.Observing

/-!
# A reset forgets everything

After a reset nothing tells what was done before it: the controller is as a newly
built one in every part, and all that is reported of the reset are the lines that
were high.

## The model

* `Forgets` — a reset leaves nothing of a state.
* `history` — all that is seen of a run: for each action what it answers, what is
  reported of it, and the controller after it.

## What is proved

* `forgets` — every state is forgotten, reachable or not.
* `history_after_reset` — what is seen after a run and a reset is what is seen from
  power-on.
* `reset_forgets_everything` — both, with a board that is newly built; so no two
  runs can be told apart once a reset has followed each.
-/

namespace Gic

namespace Controller

variable {cfg : Config}

/-- A reset leaves nothing of a state. -/
structure Forgets (g : Controller cfg) : Prop where
  /-- Every part of it is as at power-on. -/
  value : g.reset.value = powerOn cfg
  /-- Every line is low. -/
  low : ∀ cpu kind, g.reset.value.line cpu kind = false
  /-- Each line that was high is published once, as low; no other line is published. -/
  published : ∀ cpu kind,
    levelsOf cpu kind g.reset.changes = if g.line cpu kind then [false] else []
  /-- Nothing else is reported. -/
  quiet : g.reset.reports = g.reset.changes.map .line

/-- All that is reported of a reset are changes of lines. -/
theorem reports_reset (g : Controller cfg) : g.reset.reports = g.reset.changes.map .line := by
  rw [Traced.changes, reset_eq, List.filterMap_flatMap, List.map_flatMap]
  refine List.flatMap_congr fun cpu _ => ?_
  unfold resetEvents
  cases hirq : g.line cpu .irq <;> cases hvirtual : g.line cpu .virtualIrq <;>
    simp [hirq, hvirtual, Event.change?]

theorem forgets (g : Controller cfg) : g.Forgets where
  value := g.value_reset
  low cpu kind := by rw [value_reset, line_powerOn]
  published cpu kind := by
    have hlevels := levelsOf_step g .reset cpu kind
    rw [after_reset, line_powerOn] at hlevels
    refine hlevels.trans ?_
    cases g.line cpu kind <;> rfl
  quiet := g.reports_reset

/-- All that is seen of a run: for each action what it answers, what is reported of it, and the
controller after it. -/
def history (g : Controller cfg) : List Action → List (Option Answer × List Event × Controller cfg)
  | [] => []
  | a :: rest => (g.result? a, (g.step a).reports, g.after a) :: (g.after a).history rest

/-- What is seen after a run and a reset is what is seen from power-on. -/
theorem history_after_reset (actions further : List Action) :
    ((powerOn cfg).run (actions ++ [.reset])).history further = (powerOn cfg).history further := by
  rw [run_concat, after_reset]

/-- Under a valid configuration a reset leaves every state as on a newly built board, lowers each
line that was high, once, and does nothing else. So what follows a reset does not depend on what
was done before it. -/
theorem reset_forgets_everything (hv : cfg.validate = .ok ()) :
    (∀ g : Controller cfg, g.Forgets ∧
      ∃ b : Board cfg, Board.build cfg = .ok b ∧ g.reset.value = b.controller) ∧
    ∀ first second further : List Action,
      ((powerOn cfg).run (first ++ [.reset])).history further =
        ((powerOn cfg).run (second ++ [.reset])).history further := by
  refine ⟨fun g => ⟨g.forgets, ?_⟩, fun first second further => ?_⟩
  · obtain ⟨map, -, hbuild⟩ := Board.build_of_valid hv
    exact ⟨_, hbuild, g.value_reset⟩
  · rw [history_after_reset, history_after_reset]

/-- A CPU whose two lines are high is forgotten together with what it was shown. -/
theorem reset_forgets_everything_high :
    let g := (powerOn Config.standard).run
      [.write .distributor (.cpu 0) 0x000 1 .word, .write .cpuInterface (.cpu 0) 0x000 1 .word,
        .write .cpuInterface (.cpu 0) 0x004 0xf0 .word,
        .write .distributor (.cpu 0) 0xf00 0x02000003 .word,
        .write .vifControl (.cpu 0) 0x000 1 .word, .write .vcpuInterface (.cpu 0) 0x004 0xf0 .word,
        .write .vifControl (.cpu 0) 0x100 0x10000028 .word]
    Config.standard.validate = .ok () ∧ g.line 0 .irq = true ∧ g.line 0 .virtualIrq = true ∧
      g.reset.value = powerOn Config.standard ∧
      g.reset.changes = [⟨0, .irq, false⟩, ⟨0, .virtualIrq, false⟩] ∧
      levelsOf 0 .irq g.reset.changes = [false] := by
  intro g
  have hv : Config.standard.validate = .ok () := rfl
  have hg := ((reset_forgets_everything hv).1 g).1
  obtain ⟨hirq, hvirtual, hchanges⟩ : g.line 0 .irq = true ∧ g.line 0 .virtualIrq = true ∧
      g.reset.changes = [⟨0, .irq, false⟩, ⟨0, .virtualIrq, false⟩] := by decide +kernel
  have hlevels := hg.published 0 .irq
  rw [hirq, if_pos rfl] at hlevels
  exact ⟨hv, hirq, hvirtual, hg.value, hchanges, hlevels⟩

end Controller

end Gic
