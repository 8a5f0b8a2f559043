import MinicoreAgent.UnifiedPatch

/-!
# Quoted paths of patch headers

Git writes a path in quotes where it has unusual bytes. A byte is written as itself, with the
letter of its escape, or with three octal digits; which bytes are escaped is git's choice, so
the digits of a literal text can follow an escape. Reading such a text gives the path back,
whatever follows the closing quote behind a tab.
-/
namespace MinicoreAgent.Patches

open MinicoreAgent.Text (encode)

section Quoting

def octalDigit (digit : Nat) : UInt8 := 0x30 + digit.toUInt8

/-- A quoted text of some bytes. Only the quote and the backslash must be escaped. -/
inductive Quotes : List UInt8 → List UInt8 → Prop where
  | nil : Quotes [] []
  | literal (byte : UInt8) {path quoted : List UInt8} (plain : byte ≠ 0x22 ∧ byte ≠ 0x5c)
      (rest : Quotes path quoted) : Quotes (byte :: path) (byte :: quoted)
  | named (letter : UInt8) {byte : UInt8} {path quoted : List UInt8}
      (known : escapedByte letter = some byte) (rest : Quotes path quoted) :
      Quotes (byte :: path) (0x5c :: letter :: quoted)
  | octal (first second third : Nat) {path quoted : List UInt8}
      (digits : first < 4 ∧ second < 8 ∧ third < 8) (rest : Quotes path quoted) :
      Quotes ((64 * first + 8 * second + third).toUInt8 :: path)
        (0x5c :: octalDigit first :: octalDigit second :: octalDigit third :: quoted)

/-- The bytes of a quoted text before its end: no quote but behind a backslash. -/
inductive Open : List UInt8 → Prop where
  | nil : Open []
  | literal (byte : UInt8) {body : List UInt8} (plain : byte ≠ 0x22 ∧ byte ≠ 0x5c)
      (rest : Open body) : Open (byte :: body)
  | escape (letter : UInt8) {body : List UInt8} (rest : Open body) :
      Open (0x5c :: letter :: body)

/-- What no quoted path has behind its first quote, after an open beginning. -/
inductive Fault : List UInt8 → Prop where
  /-- The quote is not closed. -/
  | unclosed : Fault []
  | unfinished : Fault [0x5c]
  /-- An unknown escape. -/
  | unknown (letter : UInt8) (rest : List UInt8) (unnamed : escapedByte letter = none)
      (digitless : isOctal letter = false) : Fault (0x5c :: letter :: rest)
  /-- An octal value above 255. -/
  | large (first second third : Nat) (rest : List UInt8)
      (digits : 4 ≤ first ∧ first < 8 ∧ second < 8 ∧ third < 8) :
      Fault (0x5c :: octalDigit first :: octalDigit second :: octalDigit third :: rest)
  /-- A NUL, as it is or as an octal value of one to three digits. -/
  | nul (rest : List UInt8) : Fault (0 :: rest)
  | escapedNul (digits : Nat) (rest : List UInt8) (some : 1 ≤ digits ∧ digits ≤ 3)
      (ends : digits = 3 ∨ rest.head?.any isOctal = false) :
      Fault (0x5c :: (List.replicate digits 0x30 ++ rest))
  /-- Other text than a tab after the closing quote. -/
  | trailing (byte : UInt8) (rest : List UInt8) (other : byte ≠ 0x09) :
      Fault (0x22 :: byte :: rest)

end Quoting

section Octal

theorem is_octal_digit {digit : Nat} (small : digit < 8) : isOctal (octalDigit digit) = true := by
  have all : ∀ digit < 8, isOctal (octalDigit digit) = true := by decide
  exact all digit small

theorem octal_digit_value {digit : Nat} (small : digit < 8) :
    (octalDigit digit).toNat - 0x30 = digit := by
  have all : ∀ digit < 8, (octalDigit digit).toNat - 0x30 = digit := by decide
  exact all digit small

theorem octal_digit_unnamed {digit : Nat} (small : digit < 8) :
    escapedByte (octalDigit digit) = none := by
  have all : ∀ digit < 8, escapedByte (octalDigit digit) = none := by decide
  exact all digit small

theorem octal_digits_step (count value : Nat) {digit : Nat} (small : digit < 8)
    (rest : List UInt8) :
    octalDigits (count + 1) value (octalDigit digit :: rest) =
      octalDigits count (value * 8 + digit) rest := by
  rw [octalDigits, if_pos (is_octal_digit small), octal_digit_value small]

/-- Three digits are read as one value, whatever follows. -/
theorem octal_digits_three {first second third : Nat} (digits : first < 8 ∧ second < 8 ∧ third < 8)
    (rest : List UInt8) :
    octalDigits 3 0 (octalDigit first :: octalDigit second :: octalDigit third :: rest) =
      (64 * first + 8 * second + third, rest) := by
  rw [octal_digits_step 2 0 digits.1, octal_digits_step 1 _ digits.2.1,
    octal_digits_step 0 _ digits.2.2, octalDigits]
  congr 1
  omega

/-- Digits end where no digit follows. -/
theorem octal_digits_stop {rest : List UInt8} (ends : rest.head?.any isOctal = false)
    (count value : Nat) : octalDigits count value rest = (value, rest) := by
  cases count with
  | zero => rfl
  | succ count =>
    cases rest with
    | nil => rfl
    | cons byte rest =>
      have other : isOctal byte = false := ends
      rw [octalDigits, other]
      rfl

/-- The octal digits of an open text leave an open text. -/
theorem octal_digits_open {body : List UInt8} (opens : Open body) (tail : List UInt8)
    (ends : tail.head?.any isOctal = false) (count value : Nat) :
    ∃ left, Open left ∧ (octalDigits count value (body ++ tail)).2 = left ++ tail := by
  induction count generalizing body value with
  | zero => exact ⟨body, opens, rfl⟩
  | succ count inductionHypothesis =>
    cases opens with
    | nil => exact ⟨[], .nil, congrArg Prod.snd (octal_digits_stop ends _ _)⟩
    | @literal byte body plain rest =>
      rw [List.cons_append, octalDigits]
      split
      · exact inductionHypothesis rest (value * 8 + (byte.toNat - 0x30))
      · exact ⟨byte :: body, .literal byte plain rest, rfl⟩
    | @escape letter body rest => exact ⟨_, .escape letter rest, rfl⟩

/-- Zeros have the value zero. -/
theorem octal_digits_zeros {digits : Nat} {rest : List UInt8} (some : 1 ≤ digits ∧ digits ≤ 3)
    (ends : digits = 3 ∨ rest.head?.any isOctal = false) :
    octalDigits 3 0 (List.replicate digits 0x30 ++ rest) = (0, rest) := by
  have zero : octalDigit 0 = 0x30 := rfl
  have digit : (0 : Nat) < 8 := by decide
  have names : digits = 1 ∨ digits = 2 ∨ digits = 3 := by omega
  rw [← zero]
  rcases names with rfl | rfl | rfl
  · have stops := ends.resolve_left (by decide)
    exact (octal_digits_step 2 0 digit rest).trans (octal_digits_stop stops _ _)
  · have stops := ends.resolve_left (by decide)
    refine (octal_digits_step 2 0 digit _).trans ?_
    exact (octal_digits_step 1 0 digit rest).trans (octal_digits_stop stops _ _)
  · exact octal_digits_three ⟨digit, digit, digit⟩ rest

end Octal

section Steps

/-- A byte in front of what is read. -/
def prepend (byte : UInt8) :
    Except ToolError (List UInt8 × List UInt8) → Except ToolError (List UInt8 × List UInt8)
  | .error error => .error error
  | .ok (path, rest) => .ok (byte :: path, rest)

variable (fuel : Nat) {byte letter : UInt8} (rest : List UInt8)

theorem decode_close : decodeLoop (fuel + 1) (0x22 :: rest) = .ok ([], rest) := rfl

theorem decode_literal (plain : byte ≠ 0x22 ∧ byte ≠ 0x5c) :
    decodeLoop (fuel + 1) (byte :: rest) = prepend byte (decodeLoop fuel rest) := by
  rw [decodeLoop.eq_def]
  simp only [if_neg plain.1, if_neg plain.2]
  cases decodeLoop fuel rest with
  | error error => rfl
  | ok parts => rfl

theorem decode_named (known : escapedByte letter = some byte) :
    decodeLoop (fuel + 1) (0x5c :: letter :: rest) = prepend byte (decodeLoop fuel rest) := by
  rw [decodeLoop, if_neg (by decide), if_pos rfl]
  simp only [known]
  cases decodeLoop fuel rest with
  | error error => rfl
  | ok parts => rfl

theorem decode_octal (unnamed : escapedByte letter = none) (digit : isOctal letter = true) :
    decodeLoop (fuel + 1) (0x5c :: letter :: rest) =
      if 255 < (octalDigits 3 0 (letter :: rest)).1 then .error .invalidInvocation
      else prepend (octalDigits 3 0 (letter :: rest)).1.toUInt8
        (decodeLoop fuel (octalDigits 3 0 (letter :: rest)).2) := by
  rw [decodeLoop, if_neg (by decide), if_pos rfl]
  simp only [unnamed, digit, if_true]
  split
  · rfl
  · cases decodeLoop fuel (octalDigits 3 0 (letter :: rest)).2 with
    | error error => rfl
    | ok parts => rfl

theorem decode_unknown (unnamed : escapedByte letter = none) (digitless : isOctal letter = false) :
    decodeLoop (fuel + 1) (0x5c :: letter :: rest) = .error .invalidInvocation := by
  rw [decodeLoop, if_neg (by decide), if_pos rfl]
  simp only [unnamed, digitless]
  rfl

end Steps

section Decoding

/-- A quoted text is read back up to its closing quote. -/
theorem decode_quoted {path quoted : List UInt8} (quotes : Quotes path quoted) (rest : List UInt8)
    (fuel : Nat) (enough : quoted.length < fuel) :
    decodeLoop fuel (quoted ++ 0x22 :: rest) = .ok (path, rest) := by
  induction quotes generalizing fuel with
  | nil =>
    obtain ⟨fuel, rfl⟩ := Nat.exists_eq_succ_of_ne_zero (Nat.ne_zero_of_lt enough)
    exact decode_close fuel rest
  | literal byte plain _ inductionHypothesis =>
    obtain ⟨fuel, rfl⟩ := Nat.exists_eq_succ_of_ne_zero (Nat.ne_zero_of_lt enough)
    rw [List.cons_append, decode_literal fuel _ plain,
      inductionHypothesis fuel (Nat.lt_of_succ_lt_succ enough)]
    rfl
  | named letter known _ inductionHypothesis =>
    obtain ⟨fuel, rfl⟩ := Nat.exists_eq_succ_of_ne_zero (Nat.ne_zero_of_lt enough)
    have less : _ < fuel := Nat.lt_of_succ_lt (Nat.lt_of_succ_lt_succ enough)
    rw [List.cons_append, List.cons_append, decode_named fuel _ known,
      inductionHypothesis fuel less]
    rfl
  | octal first second third digits _ inductionHypothesis =>
    obtain ⟨fuel, rfl⟩ := Nat.exists_eq_succ_of_ne_zero (Nat.ne_zero_of_lt enough)
    have least : first < 8 := Nat.lt_trans digits.1 (by decide)
    have less : _ < fuel := Nat.lt_of_succ_lt (Nat.lt_of_succ_lt
      (Nat.lt_of_succ_lt (Nat.lt_of_succ_lt_succ enough)))
    rw [List.cons_append, List.cons_append, List.cons_append, List.cons_append,
      decode_octal fuel _ (octal_digit_unnamed least) (is_octal_digit least),
      octal_digits_three ⟨least, digits.2⟩, if_neg (by dsimp only; omega),
      inductionHypothesis fuel less]
    rfl

/-- A reading that fails, or that the checks behind it refuse. -/
def Refused : Except ToolError (List UInt8 × List UInt8) → Prop
  | .error error => error = .invalidInvocation
  | .ok (path, rest) => 0 ∈ path ∨ rest.head?.any (· ≠ 0x09) = true

theorem Refused.prepend {result : Except ToolError (List UInt8 × List UInt8)}
    (refused : Refused result) (byte : UInt8) : Refused (prepend byte result) := by
  cases result with
  | error error => exact refused
  | ok parts => exact refused.imp_left (List.mem_cons_of_mem byte)

/-- The loop has one error. -/
theorem decode_error (fuel : Nat) (bytes : List UInt8) {error : ToolError}
    (failed : decodeLoop fuel bytes = .error error) : error = .invalidInvocation := by
  have behind {byte : UInt8} {result : Except ToolError (List UInt8 × List UInt8)}
      (failed : prepend byte result = .error error) : result = .error error := by
    cases result with
    | error _ => exact failed
    | ok parts => cases failed
  induction fuel generalizing bytes with
  | zero => exact (Except.error.inj failed).symm
  | succ fuel inductionHypothesis =>
    match bytes with
    | [] => exact (Except.error.inj failed).symm
    | byte :: rest =>
      by_cases quote : byte = 0x22
      · subst quote
        cases failed
      by_cases backslash : byte = 0x5c
      · subst backslash
        match rest with
        | [] => exact (Except.error.inj failed).symm
        | letter :: rest =>
          cases known : escapedByte letter with
          | some byte =>
            rw [decode_named fuel _ known] at failed
            exact inductionHypothesis rest (behind failed)
          | none =>
            cases digit : isOctal letter with
            | false =>
              rw [decode_unknown fuel _ known digit] at failed
              exact (Except.error.inj failed).symm
            | true =>
              rw [decode_octal fuel _ known digit] at failed
              split at failed
              · exact (Except.error.inj failed).symm
              · exact inductionHypothesis _ (behind failed)
      · rw [decode_literal fuel _ ⟨quote, backslash⟩] at failed
        exact inductionHypothesis rest (behind failed)

/-- A fault behind an open beginning. The induction is on the rounds of the loop, since the
digits of an octal escape are read in one of them. -/
theorem refused_behind {body tail : List UInt8} (opens : Open body)
    (refused : ∀ fuel, Refused (decodeLoop fuel tail)) (ends : tail.head?.any isOctal = false)
    (fuel : Nat) : Refused (decodeLoop fuel (body ++ tail)) := by
  induction fuel generalizing body with
  | zero => exact rfl
  | succ fuel inductionHypothesis =>
    cases opens with
    | nil => exact refused (fuel + 1)
    | literal byte plain rest =>
      rw [List.cons_append, decode_literal fuel _ plain]
      exact (inductionHypothesis rest).prepend byte
    | @escape letter body rest =>
      rw [List.cons_append, List.cons_append]
      cases known : escapedByte letter with
      | some byte =>
        rw [decode_named fuel _ known]
        exact (inductionHypothesis rest).prepend byte
      | none =>
        cases digit : isOctal letter with
        | false =>
          rw [decode_unknown fuel _ known digit]
          exact rfl
        | true =>
          obtain ⟨left, opens, same⟩ := octal_digits_open rest tail ends 2 (letter.toNat - 0x30)
          have first : octalDigits 3 0 (letter :: (body ++ tail)) =
              octalDigits 2 (0 * 8 + (letter.toNat - 0x30)) (body ++ tail) := by
            rw [octalDigits, if_pos digit]
          rw [Nat.zero_mul, Nat.zero_add] at first
          rw [decode_octal fuel _ known digit, first, same]
          split
          · exact rfl
          · exact (inductionHypothesis opens).prepend _

/-- No reading gets past a fault. -/
theorem Fault.refused {tail : List UInt8} (fault : Fault tail) (fuel : Nat) :
    Refused (decodeLoop fuel tail) := by
  have reached (byte : UInt8) (rest : List UInt8) (fuel : Nat) (zero : byte = 0) :
      Refused (prepend byte (decodeLoop fuel rest)) := by
    cases read : decodeLoop fuel rest with
    | error error => exact decode_error fuel rest read
    | ok parts => exact .inl (by rw [zero]; exact List.mem_cons_self)
  cases fuel with
  | zero => exact rfl
  | succ fuel =>
    cases fault with
    | unclosed => exact rfl
    | unfinished => exact rfl
    | unknown letter rest unnamed digitless =>
      rw [decode_unknown fuel _ unnamed digitless]
      exact rfl
    | large first second third rest digits =>
      obtain ⟨least, first_digit, others⟩ := digits
      rw [decode_octal fuel _ (octal_digit_unnamed first_digit) (is_octal_digit first_digit),
        octal_digits_three ⟨first_digit, others⟩, if_pos (by dsimp only; omega)]
      exact rfl
    | nul rest =>
      rw [decode_literal fuel _ (by decide)]
      exact reached 0 rest fuel rfl
    | escapedNul digits rest some ends =>
      have value := octal_digits_zeros some ends
      obtain ⟨digits, rfl⟩ := Nat.exists_eq_add_of_le' some.1
      rw [List.replicate_succ, List.cons_append] at value ⊢
      rw [decode_octal fuel _ (by decide) (by decide), value]
      exact reached 0 rest fuel rfl
    | trailing byte rest other =>
      rw [decode_close]
      exact .inr (decide_eq_true other)

theorem Fault.digitless {tail : List UInt8} (fault : Fault tail) :
    tail.head?.any isOctal = false := by
  cases fault <;> rfl

end Decoding

section Results

open MinicoreAgent.Text (to_list_data utf8_of_list zero_mem_encode)

/-- A string has the bytes it was read from. -/
theorem encode_of_utf8 {bytes : List UInt8} {path : String}
    (read : String.fromUTF8? bytes.toByteArray = some path) : encode path.toList = bytes := by
  rw [String.fromUTF8?] at read
  split at read
  · rename_i valid
    rw [← utf8_of_list, String.ofList_toList, ← Option.some.inj read, to_list_data]
    exact List.toList_data_toByteArray
  · cases read

/-- The bytes of a text are read as that text. -/
theorem utf8_of_encode (text : List Char) :
    String.fromUTF8? (encode text).toByteArray = some (String.ofList text) := by
  have bytes : (encode text).toByteArray = (String.ofList text).toByteArray := by
    rw [String.toByteArray_ofList, List.utf8Encode]
    rfl
  rw [bytes, String.fromUTF8?, dif_pos (String.ofList text).isValidUTF8]
  rfl

/-- What the loop refuses is an invalid invocation. -/
theorem decode_quoted_path_refused {value : Text}
    (refused : ∀ fuel, Refused (decodeLoop fuel (encode value).tail)) :
    decodeQuotedPath value = .error .invalidInvocation := by
  have current := refused ((encode value).tail.length + 1)
  rw [decodeQuotedPath]
  dsimp only
  cases read : decodeLoop ((encode value).tail.length + 1) (encode value).tail with
  | error error =>
    rw [decode_error _ _ read]
    rfl
  | ok parts =>
    obtain ⟨decoded, rest⟩ := parts
    rw [read] at current
    change (if rest.head?.any (· ≠ 0x09) then _ else _) = _
    rcases current with nul | trailing
    · split
      · rfl
      · cases text : String.fromUTF8? decoded.toByteArray with
        | none => rfl
        | some path =>
          have member : '\x00' ∈ path.toList := by
            rw [← encode_of_utf8 text] at nul
            exact zero_mem_encode nul
          dsimp only
          rw [if_pos (List.contains_iff_mem.mpr member)]
    · rw [if_pos trailing]

/-- A path without NUL is read back from every quoted text of it, with nothing or a tab
behind. -/
theorem decode_quoted_path_reads {path value : Text} {quoted rest : List UInt8}
    (quotes : Quotes (encode path) quoted) (noNul : '\x00' ∉ path)
    (bytes : encode value = 0x22 :: (quoted ++ 0x22 :: rest))
    (behind : rest.head?.any (· ≠ 0x09) = false) : decodeQuotedPath value = .ok path := by
  have read := decode_quoted quotes rest ((quoted ++ 0x22 :: rest).length + 1)
    (by rw [List.length_append]; omega)
  rw [decodeQuotedPath, bytes, List.tail_cons]
  dsimp only
  rw [read]
  change (if rest.head?.any (· ≠ 0x09) then _ else _) = _
  rw [behind, utf8_of_encode]
  have clean : (String.ofList path).toList.contains '\x00' = false := by
    rw [String.toList_ofList, List.contains_eq_mem, decide_eq_false_iff_not]
    exact noNul
  dsimp only
  rw [clean, String.toList_ofList]
  rfl

/-- Every path without NUL is read back from each way of quoting it, with nothing or with a tab
and any text behind the closing quote. Every text with a fault in its quoted part, or right
behind it, is refused. -/
theorem quoted_paths_decode :
    (∀ (path value : Text) (quoted rest : List UInt8), '\x00' ∉ path →
      Quotes (encode path) quoted → encode value = 0x22 :: (quoted ++ 0x22 :: rest) →
      (rest = [] ∨ rest.head? = some 0x09) → decodeQuotedPath value = .ok path) ∧
    ∀ (value : Text) (first : UInt8) (body tail : List UInt8),
      encode value = first :: (body ++ tail) → Open body → Fault tail →
      decodeQuotedPath value = .error .invalidInvocation := by
  constructor
  · intro path value quoted rest noNul quotes bytes behind
    refine decode_quoted_path_reads quotes noNul bytes ?_
    rcases behind with none | tab
    · rw [none]
      rfl
    · rw [tab]
      rfl
  · intro value first body tail bytes opens fault
    apply decode_quoted_path_refused
    rw [bytes, List.tail_cons]
    exact refused_behind opens fault.refused fault.digitless

/-- A path with a quote and an umlaut, of which the second byte alone is escaped in octal. -/
theorem quoted_path_sample :
    decodeQuotedPath "\"a\\\"\\303\\2741\"\t2026".toList = .ok ['a', '"', 'ü', '1'] ∧
      decodeQuotedPath "\"a\\400\"".toList = .error .invalidInvocation := by
  constructor
  · refine quoted_paths_decode.1 ['a', '"', 'ü', '1'] _
      (0x61 :: 0x5c :: 0x22 :: 0x5c :: octalDigit 3 :: octalDigit 0 :: octalDigit 3 ::
        0x5c :: octalDigit 2 :: octalDigit 7 :: octalDigit 4 :: [0x31])
      (0x09 :: encode "2026".toList) (by decide) ?_ (by decide +kernel) (.inr rfl)
    exact .literal 0x61 (by decide) (.named 0x22 rfl (.octal 3 0 3 (by decide)
      (.octal 2 7 4 (by decide) (.literal 0x31 (by decide) .nil))))
  · exact quoted_paths_decode.2 _ 0x22 [0x61]
      (0x5c :: octalDigit 4 :: octalDigit 0 :: octalDigit 0 :: [0x22]) (by decide +kernel)
      (.literal 0x61 (by decide) .nil) (.large 4 0 0 [0x22] (by decide))

/-- A NUL in the time behind the tab is not looked at. -/
theorem nul_behind_tab :
    ∃ value : Text, '\x00' ∈ value ∧ decodeQuotedPath value = .ok ['a'] := by
  refine ⟨['"', 'a', '"', '\t', '\x00'], by decide, ?_⟩
  have bytes : encode ['"', 'a', '"', '\t', '\x00'] = 0x22 :: ([0x61] ++ 0x22 :: [0x09, 0x00]) := by
    decide +kernel
  exact decode_quoted_path_reads (.literal 0x61 (by decide) .nil) (by decide) bytes rfl

end Results

end MinicoreAgent.Patches
