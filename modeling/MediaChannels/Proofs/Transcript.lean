/-!
# Calls and replies

A system answers one call after the other, each from the state that the last one left. Two systems are compared by what
they answer.

* `transcript_eq_of_simulation`: two systems answer all calls alike if a relation between their states makes them answer
  the next call alike and survives it. The relation may speak of the calls that are still to come.
-/

namespace MediaChannels

section Transcript

variable {ι ω σ τ : Type}

/-- The replies to a list of calls, and the state that the last one leaves. -/
def transcript (step : ι → σ → ω × σ) : List ι → σ → List ω × σ
  | [], s => ([], s)
  | call :: calls, s =>
    ((step call s).1 :: (transcript step calls (step call s).2).1, (transcript step calls (step call s).2).2)

/-- Calls in two parts: the second starts from the state that the first left. -/
theorem transcript_append (step : ι → σ → ω × σ) (calls more : List ι) (s : σ) :
    transcript step (calls ++ more) s =
      ((transcript step calls s).1 ++ (transcript step more (transcript step calls s).2).1,
        (transcript step more (transcript step calls s).2).2) := by
  induction calls generalizing s with
  | nil => rfl
  | cons call calls ih => simp only [List.cons_append, transcript, ih]

/-- **Systems in a simulation answer alike**, and their last states are still related. -/
theorem transcript_eq_of_simulation {f : ι → σ → ω × σ} {g : ι → τ → ω × τ} {R : List ι → σ → τ → Prop}
    (hstep : ∀ call calls s t, R (call :: calls) s t → (f call s).1 = (g call t).1 ∧ R calls (f call s).2 (g call t).2)
    (calls : List ι) {s : σ} {t : τ} (h : R calls s t) :
    (transcript f calls s).1 = (transcript g calls t).1 ∧ R [] (transcript f calls s).2 (transcript g calls t).2 := by
  induction calls generalizing s t with
  | nil => exact ⟨rfl, h⟩
  | cons call calls ih =>
    obtain ⟨hreply, hnext⟩ := hstep call calls s t h
    obtain ⟨hrest, hlast⟩ := ih hnext
    refine ⟨?_, hlast⟩
    rw [transcript, transcript, hreply, hrest]

end Transcript

end MediaChannels
