import Mathlib.Tactic.Common

/-!
# Results that may fail

What success of a mapped result says, and the values of a list of parts of which
each may fail: all of them in order, or the first error.
-/
namespace MinicoreAgent.Results

theorem map_ok {Error First Second : Type} {result : Except Error First} {change : First → Second}
    {value : Second} :
    result.map change = .ok value ↔ ∃ first, result = .ok first ∧ value = change first := by
  cases result with
  | error error => simp [Except.map]
  | ok first => simp [Except.map, eq_comm]

theorem map_error_ok {First Second Value : Type} {change : First → Second}
    {result : Except First Value} {value : Value} :
    result.mapError change = .ok value ↔ result = .ok value := by
  cases result with
  | error error => simp [Except.mapError]
  | ok other => simp [Except.mapError]

theorem bind_ok {Error First Second : Type} {first : Except Error First}
    {second : First → Except Error Second} {value : Second} :
    (first >>= second) = .ok value ↔ ∃ between, first = .ok between ∧ second between = .ok value := by
  cases first with
  | error error => simp [bind, Except.bind]
  | ok between => simp [bind, Except.bind]

theorem to_option_some {Error Value : Type} {result : Except Error Value} {value : Value} :
    result.toOption = some value ↔ result = .ok value := by
  cases result with
  | error error => simp [Except.toOption]
  | ok other => simp [Except.toOption]

section Collecting

variable {Part Value Error : Type} {shown : Part → Except Error (List Value)}

/-- The values of all parts in order, or the first error. -/
def collect (shown : Part → Except Error (List Value)) : List Part → Except Error (List Value)
  | [] => .ok []
  | part :: rest =>
    match shown part with
    | .error error => .error error
    | .ok values => (collect shown rest).map (values ++ ·)

theorem collect_cons (part : Part) (rest : List Part) :
    collect shown (part :: rest) =
      (shown part).bind (fun values => (collect shown rest).map (values ++ ·)) := by
  rw [collect]
  cases shown part with
  | error error => rfl
  | ok values => rfl

theorem collect_cons_ok {part : Part} {rest : List Part} {values : List Value} :
    collect shown (part :: rest) = .ok values ↔
      ∃ first later, shown part = .ok first ∧ collect shown rest = .ok later ∧
        values = first ++ later := by
  rw [collect_cons]
  constructor
  · intro collected
    cases here : shown part with
    | error error =>
      rw [here] at collected
      cases collected
    | ok first =>
      rw [here, Except.bind] at collected
      obtain ⟨later, tail, rfl⟩ := map_ok.mp collected
      exact ⟨first, later, rfl, tail, rfl⟩
  · rintro ⟨first, later, here, tail, rfl⟩
    rw [here, tail]
    rfl

theorem collect_append_ok {left right : List Part} {values : List Value} :
    collect shown (left ++ right) = .ok values ↔
      ∃ first later, collect shown left = .ok first ∧ collect shown right = .ok later ∧
        values = first ++ later := by
  induction left generalizing values with
  | nil =>
    constructor
    · intro collected
      exact ⟨[], values, rfl, collected, rfl⟩
    · rintro ⟨first, later, none, collected, rfl⟩
      cases none
      exact collected
  | cons part left inductionHypothesis =>
    rw [List.cons_append, collect_cons_ok]
    constructor
    · rintro ⟨first, later, here, rest, rfl⟩
      obtain ⟨middle, last, before, after, rfl⟩ := inductionHypothesis.mp rest
      refine ⟨first ++ middle, last, ?_, after, by rw [List.append_assoc]⟩
      exact collect_cons_ok.mpr ⟨first, middle, here, before, rfl⟩
    · rintro ⟨first, later, before, after, rfl⟩
      obtain ⟨head, tail, here, rest, rfl⟩ := collect_cons_ok.mp before
      refine ⟨head, tail ++ later, here, ?_, by rw [List.append_assoc]⟩
      exact inductionHypothesis.mpr ⟨tail, later, rest, after, rfl⟩

/-- Collecting fails only where some part does. -/
theorem collect_total {parts : List Part} (all : ∀ part ∈ parts, ∃ values, shown part = .ok values) :
    ∃ values, collect shown parts = .ok values := by
  induction parts with
  | nil => exact ⟨[], rfl⟩
  | cons part rest inductionHypothesis =>
    obtain ⟨first, here⟩ := all part List.mem_cons_self
    obtain ⟨later, tail⟩ := inductionHypothesis
      (fun other member => all other (List.mem_cons_of_mem part member))
    exact ⟨first ++ later, collect_cons_ok.mpr ⟨first, later, here, tail, rfl⟩⟩

end Collecting

end MinicoreAgent.Results
