import Gic.Proofs.LineChanges

/-!
# Which accesses are refused

An access has to lie in its window as a whole, and to be of a width that the
window takes there. The offset is any number, each window judges the width on
its own, and reads and writes are judged by different functions. This module
says exactly which accesses are refused, with which error, and that a refused
access has no effect.

## The model

* `Fits window offset width` — a window takes accesses of a width at an offset.
* `Judged g window offset width x` — `x` answers as an access of that width there
  has to, and leaves `g` behind if it answers with an error.

## What is proved

* `readWindow_refused`, `readWindow_answers` and their kin for writes — an access
  that lies in its window is answered if and only if its width fits.
* `refusals_exact_and_atomic` — reads and writes of every window are judged
  alike, in every state.
-/

namespace Gic

/-- A window takes accesses of a width at an offset: words where they start, and bytes in the arrays
of bytes of the distributor. -/
def Fits (window : Interface) (offset : Nat) (width : Width) : Prop :=
  (width = .word ∧ offset % 4 = 0) ∨
    (window = .distributor ∧ width = .byte ∧
      ((0x400 ≤ offset ∧ offset < 0x7fc) ∨ (0x800 ≤ offset ∧ offset < 0xbfc) ∨
        (0xf10 ≤ offset ∧ offset < 0xf30)))

/-- The distributor takes bytes of the registers that are one. -/
theorem fits_distributor_iff (offset : Nat) (width : Width) :
    Fits .distributor offset width ↔
      (width = .word ∧ offset % 4 = 0) ∨
        (width = .byte ∧ (DistributorRegister.ofOffset offset).isByte = true) := by
  rw [Fits, DistributorRegister.isByte_iff]
  simp only [true_and]

/-- The other windows take words only. -/
theorem fits_iff_of_ne {window : Interface} (h : window ≠ .distributor) (offset : Nat)
    (width : Width) : Fits window offset width ↔ width = .word ∧ offset % 4 = 0 := by
  simp only [Fits, h, false_and, or_false]

theorem checkWord_of_fits {window : Interface} (hne : window ≠ .distributor) {offset : Nat}
    {width : Width} (h : Fits window offset width) : checkWord offset width = .ok () :=
  if_pos ((fits_iff_of_ne hne offset width).mp h)

theorem checkWord_of_not_fits {window : Interface} (hne : window ≠ .distributor) {offset : Nat}
    {width : Width} (h : ¬ Fits window offset width) :
    checkWord offset width = .error (.unsupportedWidth offset width) :=
  if_neg fun hword => h ((fits_iff_of_ne hne offset width).mpr hword)

namespace Physical

variable {cfg : Config}

/-! ### The distributor -/

/-- The distributor answers to a read of a word, or of a byte of an array of bytes. -/
theorem readDistributor_answers (p : Physical cfg) (cpu : Nat) {offset : Nat} {width : Width}
    (h : Fits .distributor offset width) :
    ∃ value, p.readDistributor cpu offset width = .ok value := by
  obtain ⟨rfl, aligned⟩ | ⟨rfl, hbyte⟩ := (fits_distributor_iff _ _).mp h
  · exact ⟨_, if_pos aligned⟩
  · exact ⟨_, if_pos hbyte⟩

theorem readDistributor_refused (p : Physical cfg) (cpu : Nat) {offset : Nat} {width : Width}
    (h : ¬ Fits .distributor offset width) :
    p.readDistributor cpu offset width = .error (.unsupportedWidth offset width) := by
  rw [fits_distributor_iff, not_or] at h
  cases width with
  | word => exact if_neg fun aligned => h.1 ⟨rfl, aligned⟩
  | byte => exact if_neg fun hbyte => h.2 ⟨rfl, hbyte⟩
  | half | double => rfl

/-- It answers to writes where it answers to reads. -/
theorem writeDistributor_answers (p : Physical cfg) (cpu : Nat) {offset : Nat} (value : Word)
    {width : Width} (h : Fits .distributor offset width) :
    ∃ q, (p.writeDistributor cpu offset value width).value = .ok q := by
  obtain ⟨rfl, aligned⟩ | ⟨rfl, hbyte⟩ := (fits_distributor_iff _ _).mp h
  · simp only [writeDistributor, if_pos aligned]
    split <;> exact ⟨_, rfl⟩
  · simp only [writeDistributor, if_pos hbyte]
    exact ⟨_, rfl⟩

theorem writeDistributor_refused (p : Physical cfg) (cpu : Nat) {offset : Nat} (value : Word)
    {width : Width} (h : ¬ Fits .distributor offset width) :
    p.writeDistributor cpu offset value width =
      pure (.error (.unsupportedWidth offset width)) := by
  rw [fits_distributor_iff, not_or] at h
  cases width with
  | word => exact if_neg fun aligned => h.1 ⟨rfl, aligned⟩
  | byte => exact if_neg fun hbyte => h.2 ⟨rfl, hbyte⟩
  | half | double => rfl

end Physical

namespace Controller

variable {cfg : Config}

/-! ### Inside a window -/

/-- A read of a width that does not fit is refused, and does nothing. -/
theorem readWindow_refused (g : Controller cfg) {window : Interface} (cpu : Nat) {offset : Nat}
    {width : Width} (h : ¬ Fits window offset width) :
    g.readWindow window cpu offset width =
      pure (.error (.unsupportedWidth offset width), g) := by
  cases window with
  | distributor => rw [readWindow, g.physical.readDistributor_refused cpu h]
  | cpuInterface | vifControl | vcpuInterface =>
    rw [readWindow, checkWord_of_not_fits (by decide) h]

/-- A read of a width that fits is answered. -/
theorem readWindow_answers (g : Controller cfg) {window : Interface} (cpu : Nat) {offset : Nat}
    {width : Width} (h : Fits window offset width) :
    ∃ value, (g.readWindow window cpu offset width).value.1 = .ok value := by
  cases window with
  | distributor => exact g.physical.readDistributor_answers cpu h
  | cpuInterface | vifControl =>
    rw [readWindow, checkWord_of_fits (by decide) h]
    exact ⟨_, rfl⟩
  | vcpuInterface =>
    rw [readWindow, checkWord_of_fits (by decide) h]
    dsimp only
    split <;> exact ⟨_, rfl⟩

/-- A write of a width that does not fit is refused, and does nothing. -/
theorem writeWindow_refused (g : Controller cfg) {window : Interface} (cpu : Nat) {offset : Nat}
    (value : Word) {width : Width} (h : ¬ Fits window offset width) :
    g.writeWindow window cpu offset value width =
      pure (.error (.unsupportedWidth offset width), g) := by
  cases window with
  | distributor =>
    rw [writeWindow, g.physical.writeDistributor_refused cpu value h]
    rfl
  | cpuInterface | vifControl | vcpuInterface =>
    rw [writeWindow, checkWord_of_not_fits (by decide) h]

/-- A write of a width that fits is answered. -/
theorem writeWindow_answers (g : Controller cfg) {window : Interface} (cpu : Nat) {offset : Nat}
    (value : Word) {width : Width} (h : Fits window offset width) :
    (g.writeWindow window cpu offset value width).value.1 = .ok () := by
  cases window with
  | distributor =>
    obtain ⟨q, hanswer⟩ := g.physical.writeDistributor_answers cpu value h
    rw [writeWindow, Traced.value_bind, hanswer]
    rfl
  | cpuInterface | vifControl =>
    rw [writeWindow, checkWord_of_fits (by decide) h]
    rfl
  | vcpuInterface =>
    rw [writeWindow, checkWord_of_fits (by decide) h]
    dsimp only
    split <;> rfl

/-- A read of the distributor that lies in its window answers what the physical half does. -/
theorem read_distributor (g : Controller cfg) (i : Initiator) {o : Nat} {w : Width}
    (inside : checkWindow cfg .distributor o w = .ok ()) :
    (g.read .distributor i o w).value = (g.physical.readDistributor (cpuOf cfg i) o w, g) := by
  rw [read, inside]
  rfl

/-- A write to the distributor that lies in its window, and is answered there, changes the physical
half. -/
theorem write_distributor (g : Controller cfg) (i : Initiator) {o : Nat} {v : BitVec 64} {w : Width}
    (inside : checkWindow cfg .distributor o w = .ok ()) {q : Physical cfg}
    (answered : (g.physical.writeDistributor (cpuOf cfg i) o (v.setWidth 32) w).value = .ok q) :
    (g.write .distributor i o v w).value = (.ok (), { g with physical := q }) := by
  have hwindow : (g.writeWindow .distributor (cpuOf cfg i) o (v.setWidth 32) w).value =
      (.ok (), { g with physical := q }) := by
    rw [writeWindow, Traced.value_bind, answered]
    rfl
  rw [write, inside]
  exact hwindow

/-! ### The whole access -/

/-- What an access of a width at an offset of a window answers, and that it does nothing if it is
refused. -/
structure Judged (g : Controller cfg) (window : Interface) (offset : Nat) (width : Width)
    {α : Type} (x : Traced Event (Reply cfg α)) : Prop where
  /-- The window refuses it if and only if it does not lie there as a whole; the error names the
  address that was accessed. -/
  outside : x.value.1 = .error (.invalidAddress ((cfg.base window + offset) % addressSpace)) ↔
    window.windowSize < offset + width.bytes
  /-- Otherwise it is refused if and only if its width does not fit. -/
  misfit : x.value.1 = .error (.unsupportedWidth offset width) ↔
    offset + width.bytes ≤ window.windowSize ∧ ¬ Fits window offset width
  /-- Otherwise it is answered. -/
  answered : (∃ a, x.value.1 = .ok a) ↔
    offset + width.bytes ≤ window.windowSize ∧ Fits window offset width
  /-- If it is refused, the controller stays as it is and no line changes. -/
  atomic : ∀ e, x.value.1 = .error e → x.value.2 = g ∧ x.changes = []

/-- An error that names an address names the one that was accessed. -/
theorem Judged.names_accessed {g : Controller cfg} {window : Interface} {offset : Nat}
    {width : Width} {α : Type} {x : Traced Event (Reply cfg α)}
    (h : Judged g window offset width x) {address : Nat}
    (hx : x.value.1 = .error (.invalidAddress address)) :
    address = (cfg.base window + offset) % addressSpace := by
  rcases Nat.lt_or_ge window.windowSize (offset + width.bytes) with houtside | hinside
  · cases (h.outside.mpr houtside).symm.trans hx
    rfl
  · by_cases hfits : Fits window offset width
    · obtain ⟨a, ha⟩ := h.answered.mpr ⟨hinside, hfits⟩
      cases ha.symm.trans hx
    · cases (h.misfit.mpr ⟨hinside, hfits⟩).symm.trans hx

theorem Judged.isOk_iff {g : Controller cfg} {window : Interface} {offset : Nat} {width : Width}
    {α : Type} {x : Traced Event (Reply cfg α)} (h : Judged g window offset width x) :
    x.value.1.isOk = true ↔
      offset + width.bytes ≤ window.windowSize ∧ Fits window offset width := by
  rw [← h.answered]
  cases x.value.1 with
  | error e => exact iff_of_false Bool.false_ne_true fun ⟨a, ha⟩ => by cases ha
  | ok a => exact iff_of_true rfl ⟨a, rfl⟩

/-- An access that is not answered leaves the controller. -/
theorem Judged.stays {g : Controller cfg} {window : Interface} {offset : Nat} {width : Width}
    {α : Type} {x : Traced Event (Reply cfg α)} (h : Judged g window offset width x)
    (hrefused : (!x.value.1.isOk) = true) : x.value.2 = g := by
  cases hx : x.value.1 with
  | error e => exact (h.atomic e hx).1
  | ok a =>
    rw [hx] at hrefused
    cases hrefused

/-- An access is judged by its window first, and then by what happens in there. -/
theorem judged_of_window {g : Controller cfg} {window : Interface} {offset : Nat} {width : Width}
    {α : Type} {x y : Traced Event (Reply cfg α)}
    (hvalue : x.value = match checkWindow cfg window offset width with
      | .error e => (.error e, g)
      | .ok () => y.value)
    (hchanges : x.changes = match checkWindow cfg window offset width with
      | .error _ => []
      | .ok () => y.changes)
    (hrefused : ¬ Fits window offset width → y = pure (.error (.unsupportedWidth offset width), g))
    (hanswers : Fits window offset width → ∃ a, y.value.1 = .ok a) :
    Judged g window offset width x := by
  by_cases h : offset + width.bytes ≤ window.windowSize
  · have hwindow : checkWindow cfg window offset width = .ok () := if_pos h
    rw [hwindow] at hvalue hchanges
    dsimp only at hvalue hchanges
    by_cases hfits : Fits window offset width
    · obtain ⟨a, ha⟩ := hanswers hfits
      rw [← hvalue] at ha
      exact {
        outside := iff_of_false (fun ho => by cases ha.symm.trans ho) (Nat.not_lt.mpr h)
        misfit := iff_of_false (fun hw => by cases ha.symm.trans hw) fun hw => hw.2 hfits
        answered := iff_of_true ⟨a, ha⟩ ⟨h, hfits⟩
        atomic := fun e he => by cases ha.symm.trans he }
    · rw [hrefused hfits] at hvalue hchanges
      have he := congrArg Prod.fst hvalue
      exact {
        outside := iff_of_false (fun ho => by cases he.symm.trans ho) (Nat.not_lt.mpr h)
        misfit := iff_of_true he ⟨h, hfits⟩
        answered := iff_of_false (fun ⟨a, ha⟩ => by cases he.symm.trans ha) fun ha => hfits ha.2
        atomic := fun _ _ => ⟨congrArg Prod.snd hvalue, hchanges⟩ }
  · have hwindow : checkWindow cfg window offset width =
        .error (.invalidAddress (addressWrapping (cfg.base window) offset)) := if_neg h
    rw [hwindow] at hvalue hchanges
    dsimp only at hvalue hchanges
    have he := congrArg Prod.fst hvalue
    exact {
      outside := iff_of_true he (Nat.not_le.mp h)
      misfit := iff_of_false (fun hw => by cases he.symm.trans hw) fun hw => h hw.1
      answered := iff_of_false (fun ⟨a, ha⟩ => by cases he.symm.trans ha) fun ha => h ha.1
      atomic := fun _ _ => ⟨congrArg Prod.snd hvalue, hchanges⟩ }

theorem judged_read (g : Controller cfg) (window : Interface) (i : Initiator) (offset : Nat)
    (width : Width) : Judged g window offset width (g.read window i offset width) := by
  refine judged_of_window ?_ (changes_read g window i offset width)
    (g.readWindow_refused (cpuOf cfg i)) (g.readWindow_answers (cpuOf cfg i))
  unfold read
  cases checkWindow cfg window offset width <;> rfl

theorem judged_write (g : Controller cfg) (window : Interface) (i : Initiator) (offset : Nat)
    (value : BitVec 64) (width : Width) :
    Judged g window offset width (g.write window i offset value width) := by
  refine judged_of_window ?_ (changes_write g window i offset value width)
    (g.writeWindow_refused (cpuOf cfg i) _)
    fun hfits => ⟨(), g.writeWindow_answers (cpuOf cfg i) _ hfits⟩
  unfold write
  cases checkWindow cfg window offset width <;> rfl

/-- In every state, a read and a write of a width at an offset are judged alike: refused as outside
of the window, refused for the width, or answered. A refused access does nothing. -/
theorem refusals_exact_and_atomic (g : Controller cfg) (window : Interface) (i : Initiator)
    (offset : Nat) (value : BitVec 64) (width : Width) :
    Judged g window offset width (g.read window i offset width) ∧
      Judged g window offset width (g.write window i offset value width) :=
  ⟨judged_read g window i offset width, judged_write g window i offset value width⟩

end Controller

end Gic
