/-!
# Reading a text from left to right

A reader is a step function: one character changes its state and completes some results.
`Text.Reads step s cs out t` says what it makes of `cs` in the state `s`, whatever follows: it
completes the results `out` and is in the state `t` then.  What is read in parts is read as a whole
(`Reads.append`).
-/

namespace FrameExport.Text

/-- White space of documents and style sheets. -/
def isSpace (c : Char) : Bool := c = ' ' || c = '\n' || c = '\t' || c = '\r' || c = '\x0c'

/-- A text of white space. -/
def Blank (cs : List Char) : Prop := ∀ c ∈ cs, isSpace c = true

instance (cs : List Char) : Decidable (Blank cs) := List.decidableBAll ..

variable {σ ω : Type}

/-- The results that a text completes, and the state behind it. -/
def run (step : σ → Char → σ × List ω) (s : σ) : List Char → List ω × σ
  | [] => ([], s)
  | c :: cs => ((step s c).2 ++ (run step (step s c).1 cs).1, (run step (step s c).1 cs).2)

/-- The text completes these results in the state `s`, and the reader is in the state `t` then. -/
def Reads (step : σ → Char → σ × List ω) (s : σ) (cs : List Char) (out : List ω) (t : σ) : Prop :=
  run step s cs = (out, t)

instance [DecidableEq σ] [DecidableEq ω] (step : σ → Char → σ × List ω) (s : σ) (cs : List Char)
    (out : List ω) (t : σ) : Decidable (Reads step s cs out t) :=
  inferInstanceAs (Decidable (run step s cs = (out, t)))

namespace Reads

variable {step : σ → Char → σ × List ω} {s t u : σ} {cs ds : List Char} {out out' : List ω}

theorem nil (step : σ → Char → σ × List ω) (s : σ) : Reads step s [] [] s := rfl

theorem cons {c : Char} (hstep : step s c = (t, out)) (h : Reads step t cs out' u) :
    Reads step s (c :: cs) (out ++ out') u := by
  rw [Reads, run, hstep, show run step t cs = (out', u) from h]

/-- What follows is read from the state in which the reader is left. -/
theorem append (h : Reads step s cs out t) (h' : Reads step t ds out' u) :
    Reads step s (cs ++ ds) (out ++ out') u := by
  induction cs generalizing s out with
  | nil =>
    obtain ⟨rfl, rfl⟩ := Prod.mk.inj h
    exact h'
  | cons c cs ih =>
    obtain ⟨rfl, hlast⟩ := Prod.mk.inj h
    rw [List.cons_append, List.append_assoc]
    exact cons rfl (ih (Prod.ext rfl hlast))

/-- Results that a reader with nothing left over adds at the end. -/
theorem results_append_nil (h : Reads step s cs out t) {rest : σ → List ω} (ht : rest t = []) :
    (run step s cs).1 ++ rest (run step s cs).2 = out := by
  rw [show run step s cs = (out, t) from h, ht, List.append_nil]

end Reads

end FrameExport.Text
