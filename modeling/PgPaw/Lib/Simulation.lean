/-
# One system that does what another does

A simulation relates the states of two systems.  What one system does in a step, the other does in
some steps of its own, none, one or several, and is related again.  So it does what the first does
in a whole run (`Simulates.leads`), in steps that meet a condition of its own.
-/
import PgPaw.Lib.Transition

namespace Transition

variable {σ τ α β : Type*}

/-- **A simulation**: each step of `S` that meets `ok` is matched by steps of `T` that meet
`ok'`. -/
def Simulates (S : System σ α) (T : System τ β) (ok : σ → α → Prop) (ok' : τ → β → Prop)
    (R : σ → τ → Prop) : Prop :=
  ∀ s t a s', R s t → ok s a → S.step s a = some s' → ∃ t', T.Leads ok' t t' ∧ R s' t'

variable {S : System σ α} {T : System τ β} {ok : σ → α → Prop} {ok' : τ → β → Prop}
  {R : σ → τ → Prop}

/-- **A run is matched by a run.** -/
theorem Simulates.leads (h : Simulates S T ok ok' R) {s s' : σ} {t : τ} (hR : R s t)
    (hrun : S.Leads ok s s') : ∃ t', T.Leads ok' t t' ∧ R s' t' := by
  induction hrun with
  | refl => exact ⟨t, Relation.ReflTransGen.refl, hR⟩
  | tail _ hnext ih =>
    obtain ⟨a, hok, hstep⟩ := hnext
    obtain ⟨t', hleads, hR'⟩ := ih
    obtain ⟨t'', hleads', hR''⟩ := h _ _ _ _ hR' hok hstep
    exact ⟨t'', hleads.trans hleads', hR''⟩

/-- A step is matched by doing nothing. -/
theorem matched_stay {s' : σ} {t : τ} (hR : R s' t) : ∃ t', T.Leads ok' t t' ∧ R s' t' :=
  ⟨t, Relation.ReflTransGen.refl, hR⟩

/-- Or by a step. -/
theorem matched_step {s' : σ} {t t' : τ} {b : β} (hok : ok' t b) (hstep : T.step t b = some t')
    (hR : R s' t') : ∃ t', T.Leads ok' t t' ∧ R s' t' :=
  ⟨t', Relation.ReflTransGen.single ⟨b, hok, hstep⟩, hR⟩

end Transition
