import Ssgx.Support.Call

/-!
# Calls that are written down

A call over a trace writes its events down in their order (`Call.note`). A rule says which events
are allowed behind which others; a trace obeys it if every event is allowed behind the events in
front of it (`Obeys`). An allowed event keeps a trace obedient (`Obeys.concat`), and the triples
carry that through a program (`Call.ensures_note`).
-/

set_option autoImplicit false

namespace Ssgx.Support

universe u v

variable {ε : Type u} {E : Type v}

/-- Write an event down. -/
def Call.note (event : E) : Call ε (List E) PUnit := .update (· ++ [event])

@[simp] theorem Call.note_apply (event : E) (trace : List E) :
    (Call.note event : Call ε (List E) PUnit) trace = (.ok ⟨⟩, trace ++ [event]) := rfl

/-- Each event of the trace is one that the rule allows behind the events in front of it. -/
def Obeys (rule : List E → E → Prop) (trace : List E) : Prop :=
  ∀ front event rest, trace = front ++ event :: rest → rule front event

variable {rule : List E → E → Prop}

theorem obeys_nil : Obeys rule [] := by
  rintro front event rest heq
  simp at heq

/-- An event that is allowed keeps the trace obedient. -/
theorem Obeys.concat {trace : List E} {event : E} (h : Obeys rule trace)
    (hevent : rule trace event) : Obeys rule (trace ++ [event]) := by
  intro front e rest heq
  rcases List.eq_nil_or_concat rest with rfl | ⟨rest, last, rfl⟩
  · obtain ⟨rfl, hlast⟩ := List.append_inj' heq rfl
    obtain ⟨rfl, -⟩ := List.cons.inj hlast
    exact hevent
  · -- the event is one of the trace already
    rw [List.concat_eq_append, ← List.cons_append, ← List.append_assoc] at heq
    exact h front e rest (List.append_inj' heq rfl).1

/-- Events that are allowed behind the trace, whatever stands in between, keep it obedient. -/
theorem Obeys.append {trace events : List E} (h : Obeys rule trace)
    (hevents : ∀ event ∈ events, ∀ more, rule (trace ++ more) event) :
    Obeys rule (trace ++ events) := by
  induction events generalizing trace with
  | nil => rwa [List.append_nil]
  | cons event rest ih =>
      have hfirst : rule (trace ++ []) event := hevents event List.mem_cons_self []
      rw [List.append_nil] at hfirst
      rw [List.append_cons]
      refine ih (h.concat hfirst) fun e hmem more => ?_
      rw [List.append_assoc]
      exact hevents e (List.mem_cons_of_mem _ hmem) _

/-- A rule that excludes an event keeps it out of the trace. -/
theorem Obeys.not_mem {trace : List E} {event : E} (h : Obeys rule trace)
    (hevent : ∀ front, ¬ rule front event) : event ∉ trace := by
  intro hmem
  obtain ⟨front, rest, rfl⟩ := List.append_of_mem hmem
  exact hevent front (h front event rest rfl)

/-- **The rule of a note.** What is known behind the note carries the rest of the program. -/
theorem Call.ensures_note {α : Type v} {P Q X : List E → Prop} {R : α → List E → Prop} {event : E}
    {f : PUnit → Call ε (List E) α} (h : ∀ trace, P trace → Q (trace ++ [event]))
    (hf : Call.Ensures Q (f ⟨⟩) R X) : Call.Ensures P (Call.note event >>= f) R X :=
  fun trace htrace => hf (trace ++ [event]) (h trace htrace)

end Ssgx.Support
