import MinicoreAgent.CompactionProjection

/-!
# Clean tool exchanges

`validate_clean_tool_exchanges` of `compaction/recovery.rs` accepts exactly the
message lists built from two kinds of blocks: a message that neither calls a tool
nor answers one, and an assistant message with calls followed by exactly their
results. Such a list may be cut wherever the next message is not a result, and
clean lists may be joined.
-/
namespace MinicoreAgent.Compaction

variable {LoopId CallId Payload Replay Digest : Type}
  (runtime : Runtime LoopId CallId Payload Replay Digest)

/-- The calls of an assistant message. -/
def toolCalls : ModelMessage CallId Payload Replay → List CallId
  | .assistant parts => callIds runtime parts
  | .assistantWithReplay parts _ => callIds runtime parts
  | _ => []

/-- The call a tool message answers. -/
def answered : ModelMessage CallId Payload Replay → Option CallId
  | .tool toolCallId _ => some toolCallId
  | _ => none

/-- These messages answer these calls, in this order. -/
def Answers (ids : List CallId) (results : List (ModelMessage CallId Payload Replay)) : Prop :=
  List.Forall₂ (fun id message => answered message = some id) ids results

/-- A sequence of plain messages and whole exchanges. -/
inductive Clean : List (ModelMessage CallId Payload Replay) → Prop
  | nil : Clean []
  | plain {message rest} (calls : toolCalls runtime message = [])
      (unanswering : answered message = none) (clean : Clean rest) : Clean (message :: rest)
  | exchange {message ids results rest} (calls : toolCalls runtime message ≠ [])
      (differ : (toolCalls runtime message).Nodup) (once : ids.Nodup)
      (same : ∀ id, id ∈ ids ↔ id ∈ toolCalls runtime message) (answers : Answers ids results)
      (clean : Clean rest) : Clean (message :: (results ++ rest))

section Blocks

variable {runtime} {messages left right : List (ModelMessage CallId Payload Replay)}

/-- A clean list goes on clean after a message without calls. -/
theorem Clean.plain_tail {message : ModelMessage CallId Payload Replay}
    (clean : Clean runtime (message :: messages)) (none : toolCalls runtime message = []) :
    answered message = Option.none ∧ Clean runtime messages := by
  generalize whole : message :: messages = list at clean
  cases clean with
  | nil => cases whole
  | plain _ unanswering rest =>
    obtain ⟨rfl, rfl⟩ := List.cons.inj whole
    exact ⟨unanswering, rest⟩
  | exchange some =>
    obtain ⟨rfl, _⟩ := List.cons.inj whole
    exact absurd none some

theorem Clean.append (first : Clean runtime left) (second : Clean runtime right) :
    Clean runtime (left ++ right) := by
  induction first with
  | nil => exact second
  | plain calls unanswering _ inductionHypothesis =>
    exact .plain calls unanswering inductionHypothesis
  | exchange calls differ once same answers _ inductionHypothesis =>
    rw [List.cons_append, List.append_assoc]
    exact .exchange calls differ once same answers inductionHypothesis

/-- A clean list splits before any message that is no result. -/
theorem Clean.split (clean : Clean runtime (left ++ right))
    (start : right.head?.bind answered = none) : Clean runtime left ∧ Clean runtime right := by
  generalize whole : left ++ right = messages at clean
  induction clean generalizing left with
  | nil =>
    obtain ⟨rfl, rfl⟩ := List.append_eq_nil_iff.mp whole
    exact ⟨.nil, .nil⟩
  | plain calls unanswering clean inductionHypothesis =>
    cases left with
    | nil =>
      subst whole
      exact ⟨.nil, .plain calls unanswering clean⟩
    | cons head rest =>
      obtain ⟨rfl, tail⟩ := List.cons.inj whole
      obtain ⟨before, after⟩ := inductionHypothesis tail
      exact ⟨.plain calls unanswering before, after⟩
  | @exchange message ids results rest calls differ once same answers clean inductionHypothesis =>
    cases left with
    | nil =>
      subst whole
      exact ⟨.nil, .exchange calls differ once same answers clean⟩
    | cons head front =>
      obtain ⟨rfl, tail⟩ := List.cons.inj whole
      -- The cut lies behind all results, or one of them would follow it.
      rcases List.append_eq_append_iff.mp tail with ⟨missing, shape, rest'⟩ | ⟨extra, shape, rest'⟩
      · cases missing with
        | nil =>
          rw [List.append_nil] at shape
          rw [List.nil_append] at rest'
          subst shape rest'
          refine ⟨?_, clean⟩
          have closed := Clean.exchange calls differ once same answers .nil
          rwa [List.append_nil] at closed
        | cons result missing =>
          rw [rest', List.cons_append, List.head?_cons, Option.bind_some] at start
          rw [shape] at answers
          have member : result ∈ front ++ result :: missing := by simp
          obtain ⟨position, inside⟩ := List.getElem?_of_mem member
          have bound : position < ids.length := by
            rw [answers.length_eq]
            exact (List.getElem?_eq_some_iff.mp inside).1
          have answer := answers.get bound (List.getElem?_eq_some_iff.mp inside).1
          have here := (List.getElem?_eq_some_iff.mp inside).2
          simp only [List.get_eq_getElem] at answer
          rw [here, start] at answer
          cases answer
      · obtain ⟨before, after⟩ := inductionHypothesis rest'.symm
        rw [shape]
        exact ⟨.exchange calls differ once same answers before, after⟩

end Blocks

section Validation

variable [DecidableEq CallId]

/-- The inner loop: results are collected until there are as many as calls. -/
def takeResults (needed : Nat) : List (ModelMessage CallId Payload Replay) → List CallId →
    Option (List CallId × List (ModelMessage CallId Payload Replay))
  | [], ids => some (ids, [])
  | message :: rest, ids =>
    match answered message with
    | none => some (ids, message :: rest)
    | some id =>
      if id ∈ ids then none
      else if (ids ++ [id]).length = needed then some (ids ++ [id], rest)
      else takeResults needed rest (ids ++ [id])

/-- The loop of `validate_clean_tool_exchanges`. -/
def validateLoop : Nat → List (ModelMessage CallId Payload Replay) → Bool
  | 0, _ => true
  | _ + 1, [] => true
  | fuel + 1, message :: rest =>
    if toolCalls runtime message = [] then
      if (answered message).isSome then false else validateLoop fuel rest
    else if (toolCalls runtime message).Nodup then
      match takeResults (toolCalls runtime message).length rest [] with
      | none => false
      | some (ids, left) =>
        if ids ⊆ toolCalls runtime message ∧ toolCalls runtime message ⊆ ids then
          validateLoop fuel left
        else false
    else false

/-- `validate_clean_tool_exchanges`. -/
def validateCleanToolExchanges (messages : List (ModelMessage CallId Payload Replay)) : Bool :=
  validateLoop runtime messages.length messages

variable {runtime}

/-- What is collected answers new calls, and the rest follows. -/
theorem take_results_spec {needed : Nat} {messages left : List (ModelMessage CallId Payload Replay)}
    {ids found : List CallId} (taken : takeResults needed messages ids = some (found, left)) :
    ∃ new results, messages = results ++ left ∧ found = ids ++ new ∧ Answers new results ∧
      (ids.Nodup → found.Nodup) := by
  induction messages generalizing ids with
  | nil =>
    cases taken
    exact ⟨[], [], rfl, by simp, .nil, id⟩
  | cons message rest inductionHypothesis =>
    unfold takeResults at taken
    split at taken
    · cases taken
      exact ⟨[], [], rfl, by simp, .nil, id⟩
    · rename_i id answer
      have extend (fresh : id ∉ ids) (once : ids.Nodup) : (ids ++ [id]).Nodup := by
        apply List.Nodup.append once (List.nodup_singleton id)
        simpa using fresh
      split_ifs at taken with repeated enough
      · cases taken
        exact ⟨[id], [message], rfl, rfl, .cons answer .nil, extend repeated⟩
      · obtain ⟨new, results, whole, shape, answers, once⟩ := inductionHypothesis taken
        refine ⟨id :: new, message :: results, ?_, ?_, .cons answer answers, ?_⟩
        · rw [whole, List.cons_append]
        · rw [shape, List.append_assoc, List.singleton_append]
        · exact fun earlier => once (extend repeated earlier)

/-- The results of an exchange are collected up to the last. -/
theorem take_results_all {needed : Nat} {new ids : List CallId}
    {results rest : List (ModelMessage CallId Payload Replay)} (answers : Answers new results)
    (some : new ≠ []) (once : (ids ++ new).Nodup) (enough : (ids ++ new).length = needed) :
    takeResults needed (results ++ rest) ids = Option.some (ids ++ new, rest) := by
  induction answers generalizing ids with
  | nil => exact absurd rfl some
  | @cons id message others results answer answers inductionHypothesis =>
    have fresh : id ∉ ids := by
      intro member
      exact (List.nodup_append.mp once).2.2 id member id List.mem_cons_self rfl
    simp only [List.cons_append, takeResults, answer, if_neg fresh]
    cases others with
    | nil =>
      cases answers
      simp only [List.nil_append]
      rw [if_pos enough]
    | cons next others =>
      have more : (ids ++ [id]).length ≠ needed := by
        simp only [List.length_append, List.length_cons, List.length_nil] at enough ⊢
        omega
      rw [if_neg more, inductionHypothesis (by simp) (by simpa using once) (by simpa using enough)]
      simp

/-- The validation accepts exactly the clean lists. -/
theorem validate_loop_iff (fuel : Nat) (messages : List (ModelMessage CallId Payload Replay))
    (enough : messages.length ≤ fuel) :
    validateLoop runtime fuel messages = true ↔ Clean runtime messages := by
  induction fuel generalizing messages with
  | zero =>
    obtain rfl := List.length_eq_zero_iff.mp (Nat.le_zero.mp enough)
    exact ⟨fun _ => .nil, fun _ => rfl⟩
  | succ fuel inductionHypothesis =>
    cases messages with
    | nil => exact ⟨fun _ => .nil, fun _ => rfl⟩
    | cons message rest =>
      rw [List.length_cons] at enough
      unfold validateLoop
      by_cases calls : toolCalls runtime message = []
      · rw [if_pos calls]
        constructor
        · intro accepted
          split_ifs at accepted with answers
          exact .plain calls (by simpa using answers)
            ((inductionHypothesis rest (by omega)).mp accepted)
        · intro clean
          cases clean with
          | plain _ unanswering clean =>
            simp only [unanswering, Option.isSome_none, Bool.false_eq_true, if_false]
            exact (inductionHypothesis rest (by omega)).mpr clean
          | exchange some => exact absurd calls some
      · rw [if_neg calls]
        constructor
        · intro accepted
          split_ifs at accepted with differ
          split at accepted
          · cases accepted
          · rename_i ids left taken
            split_ifs at accepted with same
            obtain ⟨new, results, whole, shape, answers, once⟩ := take_results_spec taken
            rw [List.nil_append] at shape
            subst shape
            have shorter : left.length ≤ fuel := by
              have length := congrArg List.length whole
              rw [List.length_append] at length
              omega
            rw [whole]
            exact .exchange calls differ (once List.nodup_nil)
              (fun id => ⟨fun member => same.1 member, fun member => same.2 member⟩) answers
              ((inductionHypothesis left shorter).mp accepted)
        · intro clean
          cases clean with
          | plain none => exact absurd none calls
          | @exchange _ ids results rest _ differ once same answers clean =>
            have length : ids.length = (toolCalls runtime message).length := by
              refine List.Perm.length_eq ?_
              exact (List.perm_ext_iff_of_nodup once differ).mpr same
            have some : ids ≠ [] := by
              rintro rfl
              exact calls (List.length_eq_zero_iff.mp length.symm)
            have taken : takeResults (toolCalls runtime message).length (results ++ rest) [] =
                Option.some ([] ++ ids, rest) :=
              take_results_all answers some (by simpa using once) (by simpa using length)
            rw [List.nil_append] at taken
            have shorter : rest.length ≤ fuel := by
              rw [List.length_append] at enough
              omega
            rw [if_pos differ]
            simp only [taken]
            rw [if_pos ⟨fun id member => (same id).mp member, fun id member => (same id).mpr member⟩]
            exact (inductionHypothesis rest shorter).mpr clean

theorem validate_clean_iff (messages : List (ModelMessage CallId Payload Replay)) :
    validateCleanToolExchanges runtime messages = true ↔ Clean runtime messages :=
  validate_loop_iff messages.length messages (Nat.le_refl _)

end Validation

end MinicoreAgent.Compaction
