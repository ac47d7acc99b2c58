/-!
# Results with a trace

What the controller does is seen from outside in two ways: by the values it
returns and by what it reports on the way, in order. A `Traced` result holds
both. Results are chained with `bind`, which joins the reports; reading `value`
alone forgets them, and by `value_bind` it does so step by step.
-/

namespace Gic

/-- A value and what was reported while it was computed, first report first. -/
structure Traced (ε α : Type) where
  /-- The value. -/
  value : α
  /-- The reports. -/
  reports : List ε
  deriving DecidableEq, Repr

namespace Traced

variable {ε α β : Type}

instance : Monad (Traced ε) where
  pure a := ⟨a, []⟩
  bind x f := let y := f x.value; ⟨y.value, x.reports ++ y.reports⟩

/-- Reports one thing. -/
def report (e : ε) : Traced ε Unit := ⟨(), [e]⟩

/-- Reports something under a condition. -/
def reportIf (c : Bool) (e : ε) : Traced ε Unit := ⟨(), if c then [e] else []⟩

/-- Reports several things. -/
def reportAll (es : List ε) : Traced ε Unit := ⟨(), es⟩

@[simp] theorem value_pure (a : α) : (pure a : Traced ε α).value = a := rfl

@[simp] theorem reports_pure (a : α) : (pure a : Traced ε α).reports = [] := rfl

@[simp] theorem value_bind (x : Traced ε α) (f : α → Traced ε β) :
    (x >>= f).value = (f x.value).value := rfl

@[simp] theorem reports_bind (x : Traced ε α) (f : α → Traced ε β) :
    (x >>= f).reports = x.reports ++ (f x.value).reports := rfl

/-- How a computation goes on depends on its value only. -/
theorem bind_congr_value (x : Traced ε α) {f g : α → Traced ε β} (h : f x.value = g x.value) :
    x >>= f = x >>= g :=
  congrArg (fun y : Traced ε β => (⟨y.value, x.reports ++ y.reports⟩ : Traced ε β)) h

end Traced

end Gic
