import Gic.Proofs.Run

/-!
# What an action does with a guest

The virtual halves of the CPUs are kept apart: an access reaches the half of the
CPU that makes it. All of them decide anew together, but each for itself. So a
run can be followed for one CPU at a time, and this module says what an action
does with the virtual half of that CPU.

## The model

* `VirtualCpu.decided` — a virtual half after it has decided anew, and
  `VirtualWritten.result` — after an access, with the decision that may have to
  follow.
* `GuestMoves g c a v` — the action `a`, done in `g`, may leave `v` as the
  virtual half of the CPU `c`. There is one rule for each access that the CPU
  can make, and two for everything that others do.

## What is proved

* `guestMoves_after` — every action does what one of the rules says.
* `Reachable.guest_induct` — what every rule keeps of the virtual half of a CPU holds
  in every reachable state, if it holds at power-on.
-/

namespace Gic

/-- A virtual half that has decided anew what its guest is shown. -/
def VirtualCpu.decided (v : VirtualCpu) : VirtualCpu := Controller.settle v v.decideFor

/-- A virtual half after an access, and after the decision that follows it if it has to. -/
def VirtualWritten.result (w : VirtualWritten) : VirtualCpu :=
  if w.dirty then w.state.decided else w.state

namespace Controller

variable {cfg : Config}

/-! ### Putting a virtual half back -/

theorem row_arbitrateVirtual (g : Controller cfg) {c : Nat} (hc : c < cfg.cpus) :
    g.arbitrateVirtual.value.virtuals.row c = (g.virtuals.row c).decided := by
  simp only [arbitrateVirtual, Table.row_mapRows, Table.row_build, hc, if_true]
  rfl

theorem row_alterVirtual (g : Controller cfg) (cpu : Nat) (v : VirtualCpu) {c : Nat}
    (hc : c < cfg.cpus) :
    (g.virtuals.alter cpu fun _ => v).row c = if cpu = c then v else g.virtuals.row c := by
  rw [Table.row_alter]
  simp only [hc, and_true]

theorem row_putVirtual (g : Controller cfg) (cpu : Nat) (w : VirtualWritten) {c : Nat}
    (hc : c < cfg.cpus) :
    (g.putVirtual cpu w).value.virtuals.row c =
      if cpu = c then w.result
      else if w.dirty then (g.virtuals.row c).decided else g.virtuals.row c := by
  have hrow := row_alterVirtual g cpu w.state hc
  unfold putVirtual VirtualWritten.result
  dsimp only
  split
  · rw [row_arbitrateVirtual _ hc]
    dsimp only
    rw [hrow]
    split <;> rfl
  · exact hrow

theorem virtuals_endBacking (g : Controller cfg) (cpu irq physical : Nat) :
    (g.endBacking cpu irq physical).value.virtuals = g.virtuals := by
  unfold endBacking
  split <;> rfl

/-- A completion that names an interrupt that can exist. -/
theorem row_completeVirtual (g : Controller cfg) (cpu : Nat) (value : Word)
    (valid : value.field 0 10 < maxIrqs) {c : Nat} (hc : c < cfg.cpus) :
    (g.completeVirtual cpu value).value.virtuals.row c =
      if cpu = c then ((g.virtuals.row cpu).complete cpu (value.field 0 10)).value.1.decided
      else (g.virtuals.row c).decided := by
  have hvalid : ¬ maxIrqs ≤ value.field 0 10 := Nat.not_le.mpr valid
  have hrow := row_alterVirtual g cpu
    ((g.virtuals.row cpu).complete cpu (value.field 0 10)).value.1 hc
  unfold completeVirtual
  simp only [hvalid, if_false, Traced.value_bind]
  cases ((g.virtuals.row cpu).complete cpu (value.field 0 10)).value.2 with
  | none =>
    rw [Traced.value_bind, row_arbitrateVirtual _ hc, Traced.value_pure, hrow]
    split <;> rfl
  | some physical =>
    rw [Traced.value_bind, row_arbitrateVirtual _ hc, virtuals_endBacking, hrow]
    split <;> rfl

/-- A completion that does not changes no virtual half. -/
theorem virtuals_completeVirtual_of_le (g : Controller cfg) (cpu : Nat) (value : Word)
    (invalid : maxIrqs ≤ value.field 0 10) :
    (g.completeVirtual cpu value).value.virtuals = g.virtuals := by
  unfold completeVirtual
  simp only [invalid, if_true]
  rfl

/-! ### One action -/

/-- Outside the distributor nothing is written at an offset that no word starts at. -/
theorem after_write_unaligned (g : Controller cfg) {window : Interface}
    (hwindow : window ≠ .distributor) (i : Initiator) {o : Nat} (v : BitVec 64) (h : o % 4 ≠ 0) :
    g.after (.write window i o v .word) = g := by
  have hcheck : checkWord o .word = .error (.unsupportedWidth o .word) := if_neg fun hw => h hw.2
  rw [after_write]
  split
  · rfl
  · cases window with
    | distributor => exact absurd rfl hwindow
    | cpuInterface | vifControl | vcpuInterface =>
      rw [writeWindow, hcheck]
      rfl

/-- What an action may leave of the virtual half of a CPU. -/
inductive GuestMoves (g : Controller cfg) (c : Nat) : Action → VirtualCpu → Prop where
  /-- It stays as it is. -/
  | stays (a : Action) : GuestMoves g c a (g.virtuals.row c)
  /-- It decides anew, since another CPU's guest was accessed, or by request. -/
  | decides (a : Action) : GuestMoves g c a (g.virtuals.row c).decided
  /-- The hypervisor on the CPU writes. -/
  | hypervisorWrites {i : Initiator} {o : Nat} {v : BitVec 64} (own : cpuOf cfg i = c) :
      GuestMoves g c (.write .vifControl i o v .word)
        ((g.virtuals.row c).writeVif c (.ofOffset o) (v.setWidth 32)).value.result
  /-- The guest on the CPU writes, and completes nothing by that. -/
  | guestWrites {i : Initiator} {o : Nat} {v : BitVec 64} (own : cpuOf cfg i = c)
      (other : CpuRegister.ofOffset o ≠ .completion) :
      GuestMoves g c (.write .vcpuInterface i o v .word)
        ((g.virtuals.row c).writeGuest c (.ofOffset o) (v.setWidth 32)).value.result
  /-- The guest on the CPU acknowledges. -/
  | acknowledges {i : Initiator} (own : cpuOf cfg i = c) :
      GuestMoves g c (.read .vcpuInterface i 0x0c .word)
        ((g.virtuals.row c).acknowledge c).value.2.result
  /-- The guest on the CPU completes an interrupt that can exist. -/
  | completes {i : Initiator} {v : BitVec 64} (own : cpuOf cfg i = c)
      (valid : Word.field (v.setWidth 32) 0 10 < maxIrqs) :
      GuestMoves g c (.write .vcpuInterface i 0x10 v .word)
        ((g.virtuals.row c).complete c (Word.field (v.setWidth 32) 0 10)).value.1.decided
  /-- It returns to what it was at power-on. -/
  | powersOn : GuestMoves g c .reset .powerOn

/-- An access by the CPU itself gives the result of the access, one by another CPU at most lets
it decide anew. -/
theorem guestMoves_putVirtual {g : Controller cfg} {c : Nat} (hc : c < cfg.cpus) {a : Action}
    {cpu : Nat} {w : VirtualWritten} (own : cpu = c → GuestMoves g c a w.result) :
    GuestMoves g c a ((g.putVirtual cpu w).value.virtuals.row c) := by
  rw [row_putVirtual g cpu w hc]
  split
  · rename_i hcpu
    exact own hcpu
  · split
    · exact .decides a
    · exact .stays a

theorem guestMoves_completeVirtual {g : Controller cfg} {c : Nat} (hc : c < cfg.cpus)
    (i : Initiator) (v : BitVec 64) :
    GuestMoves g c (.write .vcpuInterface i 0x10 v .word)
      ((g.completeVirtual (cpuOf cfg i) (v.setWidth 32)).value.virtuals.row c) := by
  by_cases valid : Word.field (v.setWidth 32) 0 10 < maxIrqs
  · rw [row_completeVirtual g _ _ valid hc]
    split
    · rename_i own
      rw [own]
      exact .completes own valid
    · exact .decides _
  · rw [virtuals_completeVirtual_of_le g _ _ (Nat.not_lt.mp valid)]
    exact .stays _

theorem guestMoves_read (g : Controller cfg) {c : Nat} (hc : c < cfg.cpus) (window : Interface)
    (initiator : Initiator) (offset : Nat) (width : Width) :
    GuestMoves g c (.read window initiator offset width)
      ((g.after (.read window initiator offset width)).virtuals.row c) := by
  rw [after_read]
  split
  · exact .stays _
  cases window with
  | distributor => exact .stays _
  | cpuInterface =>
    simp only [readWindow]
    split <;> exact .stays _
  | vifControl =>
    simp only [readWindow]
    split <;> exact .stays _
  | vcpuInterface =>
    simp only [readWindow]
    split
    · exact .stays _
    · rename_i hw
      obtain ⟨rfl, -⟩ := width_of_checkWord hw
      split
      · rename_i h
        obtain rfl := CpuRegister.offset_of_acknowledge h
        simp only [Traced.value_bind, Traced.value_pure]
        refine guestMoves_putVirtual hc fun own => ?_
        rw [own]
        exact .acknowledges own
      · exact .stays _

theorem guestMoves_write (g : Controller cfg) {c : Nat} (hc : c < cfg.cpus) (window : Interface)
    (initiator : Initiator) (offset : Nat) (value : BitVec 64) (width : Width) :
    GuestMoves g c (.write window initiator offset value width)
      ((g.after (.write window initiator offset value width)).virtuals.row c) := by
  rw [after_write]
  split
  · exact .stays _
  cases window with
  | distributor =>
    simp only [writeWindow, Traced.value_bind]
    split <;> exact .stays _
  | cpuInterface =>
    simp only [writeWindow]
    split <;> exact .stays _
  | vifControl =>
    simp only [writeWindow]
    split
    · exact .stays _
    · rename_i hw
      obtain ⟨rfl, -⟩ := width_of_checkWord hw
      simp only [Traced.value_bind, Traced.value_pure]
      refine guestMoves_putVirtual hc fun own => ?_
      rw [own]
      exact .hypervisorWrites own
  | vcpuInterface =>
    simp only [writeWindow]
    split
    · exact .stays _
    · rename_i hw
      obtain ⟨rfl, -⟩ := width_of_checkWord hw
      split
      · rename_i h
        obtain rfl := CpuRegister.offset_of_completion h
        exact guestMoves_completeVirtual hc initiator value
      · rename_i other
        simp only [Traced.value_bind, Traced.value_pure]
        refine guestMoves_putVirtual hc fun own => ?_
        rw [own]
        exact .guestWrites own other

theorem virtuals_drivePpi (g : Controller cfg) (cpu index : Nat) (level : Bool) :
    (g.drivePpi cpu index level).value.virtuals = g.virtuals := by
  unfold drivePpi
  split <;> rfl

theorem virtuals_driveSpi (g : Controller cfg) (index : Nat) (level : Bool) :
    (g.driveSpi index level).value.virtuals = g.virtuals := by
  unfold driveSpi
  split <;> rfl

theorem virtuals_handle (g : Controller cfg) (request : Request) :
    (g.handle request).value.virtuals = g.virtuals := by
  unfold handle
  split
  · rfl
  · split
    · exact virtuals_drivePpi g _ _ _
    · exact virtuals_driveSpi g _ _

/-- Every action does what one of the rules says with the virtual half of a connected CPU. -/
theorem guestMoves_after (g : Controller cfg) {c : Nat} (hc : c < cfg.cpus) (a : Action) :
    GuestMoves g c a ((g.after a).virtuals.row c) := by
  cases a with
  | read window initiator offset width => exact guestMoves_read g hc window initiator offset width
  | write window initiator offset value width =>
    exact guestMoves_write g hc window initiator offset value width
  | ppi cpu index level =>
    show GuestMoves g c _ ((g.drivePpi cpu index level).value.virtuals.row c)
    rw [virtuals_drivePpi]
    exact .stays _
  | spi index level =>
    show GuestMoves g c _ ((g.driveSpi index level).value.virtuals.row c)
    rw [virtuals_driveSpi]
    exact .stays _
  | request request =>
    show GuestMoves g c _ ((g.handle request).value.virtuals.row c)
    rw [virtuals_handle]
    exact .stays _
  | update domain =>
    cases domain with
    | physical => exact .stays _
    | virtual =>
      show GuestMoves g c _ (g.arbitrateVirtual.value.virtuals.row c)
      rw [row_arbitrateVirtual g hc]
      exact .decides _
  | reset =>
    rw [after_reset]
    simp only [powerOn, Table.row_replicate, hc, if_true]
    exact .powersOn

/-- What a virtual half is at power-on, and stays by every rule, the virtual half of a connected
CPU is in every reachable state. -/
theorem Reachable.guest_induct {P : VirtualCpu → Prop} {c : Nat} (hc : c < cfg.cpus)
    (start : P .powerOn)
    (keep : ∀ {g : Controller cfg} {a : Action} {v : VirtualCpu}, GuestMoves g c a v →
      P (g.virtuals.row c) → P v)
    {g : Controller cfg} (h : Reachable g) : P (g.virtuals.row c) := by
  have hpowerOn : (powerOn cfg).virtuals.row c = .powerOn := by
    rw [powerOn, Table.row_replicate, if_pos hc]
  exact h.induct (P := fun g => P (g.virtuals.row c)) (hpowerOn ▸ start)
    fun g a _ hg => keep (guestMoves_after g hc a) hg

end Controller

end Gic
