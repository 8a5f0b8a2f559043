import MinicoreAgent.MeasuredReads
import MinicoreAgent.StoredResults

/-!
# Sizes of turn pages

A page of `turn.result` that has no items is measured as it is. Any other is packed from
the texts of its turn: those of a retained source, or those that are encoded anew from the
history or from the stored record. Encoding stops once enough is prepared to fill the page.
-/
namespace MinicoreAgent.TurnResults

open HistoryStore ReadPages Text
open JsonSize

variable {LoopId Payload Replay Digest : Type}

section Answers

/-- The sizes of what a page has beside its items and its cursor. -/
structure TurnSizes (LoopId Payload : Type) where
  turn : LoopId → Nat
  unavailableReason : SessionState.UnavailableReason → Nat
  outcome : LoopOutcomeView Payload → Nat
  persistence : SessionState.TurnPersistence → Nat
  usage : Usage → Nat
  finalConfigRevision : Nat → Nat
  interrupted : Payload → Nat

def TurnResultAvailability.asStr : TurnResultAvailability → List Char
  | .pending => "pending".toList
  | .live => "live".toList
  | .stored => "stored".toList
  | .unavailable => "unavailable".toList

variable (sizes : TurnSizes LoopId Payload)

/-- The fields that are left out where there is no value. -/
def TurnResultPage.facts (page : TurnResultPage LoopId Payload) : List (String × Nat) :=
  optional "outcome" (page.outcome.map sizes.outcome) ++
    optional "persistence" (page.persistence.map sizes.persistence) ++
    optional "usage" (page.usage.map sizes.usage) ++
    optional "requests" (page.requests.map numberLen) ++
    optional "tool_rounds" (page.toolRounds.map numberLen) ++
    optional "final_config_revision" (page.finalConfigRevision.map sizes.finalConfigRevision) ++
    optional "completed_at" (page.completedAt.map fun time => stringLen time.toList) ++
    optional "interrupted" (page.interrupted.map sizes.interrupted)

def TurnResultPage.encodedLen (page : TurnResultPage LoopId Payload) : Nat :=
  objectLen ([("turn", sizes.turn page.loopId),
    ("load", page.load.elim 4 fun load => stringLen load.toList),
    ("result_id", page.resultId.elim 4 fun resultId => stringLen resultId.toList),
    ("persistence_uncertain", boolLen page.persistenceUncertain),
    ("unavailable_reason", page.unavailableReason.elim 4 sizes.unavailableReason),
    ("availability", stringLen page.availability.asStr)] ++
    page.facts sizes ++
    [("items", arrayLen (page.items.map ReadItemChunk.encodedLen)),
      ("next_cursor", encodedCursor page.nextCursor), ("total", numberLen page.total)])

/-- A request with the sizes that the code measures. -/
def TurnCalls.measured (calls : TurnCalls LoopId Payload) : TurnCalls LoopId Payload :=
  { calls with
    encodedPage := TurnResultPage.encodedLen sizes
    encodedCursor := ReadPages.encodedCursor
    encodedLen := ReadItemChunk.encodedLen }

/-- What a page of a turn has beside its chunks and its cursor. -/
def turnFrame (base : TurnResultPage LoopId Payload) : PageFrame where
  fixed := base.encodedLen sizes - 4
  records := fun _ => 0
  grows := fun _ _ _ => Nat.le_refl 0

end Answers

section Writing

/-- What a page has beside its items and its cursor, as it is written. -/
structure TurnJson (LoopId Payload : Type) where
  turn : LoopId → List Char
  unavailableReason : SessionState.UnavailableReason → List Char
  outcome : LoopOutcomeView Payload → List Char
  persistence : SessionState.TurnPersistence → List Char
  usage : Usage → List Char
  finalConfigRevision : Nat → List Char
  interrupted : Payload → List Char

def TurnJson.sizes (json : TurnJson LoopId Payload) : TurnSizes LoopId Payload where
  turn := fun loopId => byteLen (json.turn loopId)
  unavailableReason := fun reason => byteLen (json.unavailableReason reason)
  outcome := fun outcome => byteLen (json.outcome outcome)
  persistence := fun persistence => byteLen (json.persistence persistence)
  usage := fun usage => byteLen (json.usage usage)
  finalConfigRevision := fun revision => byteLen (json.finalConfigRevision revision)
  interrupted := fun request => byteLen (json.interrupted request)

def TurnResultPage.factTexts (json : TurnJson LoopId Payload)
    (page : TurnResultPage LoopId Payload) : List (String × List Char) :=
  optionalText "outcome" (page.outcome.map json.outcome) ++
    optionalText "persistence" (page.persistence.map json.persistence) ++
    optionalText "usage" (page.usage.map json.usage) ++
    optionalText "requests" (page.requests.map numberText) ++
    optionalText "tool_rounds" (page.toolRounds.map numberText) ++
    optionalText "final_config_revision"
      (page.finalConfigRevision.map json.finalConfigRevision) ++
    optionalText "completed_at" (page.completedAt.map fun time => stringText time.toList) ++
    optionalText "interrupted" (page.interrupted.map json.interrupted)

/-- The page as it is written. -/
def TurnResultPage.json (json : TurnJson LoopId Payload) (page : TurnResultPage LoopId Payload) :
    List Char :=
  objectText ([("turn", json.turn page.loopId),
    ("load", page.load.elim nullText fun load => stringText load.toList),
    ("result_id", page.resultId.elim nullText fun resultId => stringText resultId.toList),
    ("persistence_uncertain", boolText page.persistenceUncertain),
    ("unavailable_reason", page.unavailableReason.elim nullText json.unavailableReason),
    ("availability", stringText page.availability.asStr)] ++
    page.factTexts json ++
    [("items", arrayText (page.items.map ReadItemChunk.json)),
      ("next_cursor", cursorJson page.nextCursor), ("total", numberText page.total)])

/-- What the code measures is the length of what is written. -/
theorem turn_json_len (json : TurnJson LoopId Payload) (page : TurnResultPage LoopId Payload) :
    byteLen (page.json json) = page.encodedLen json.sizes := by
  have elim_len {Value : Type} (value : Option Value) (write : Value → List Char) :
      byteLen (value.elim nullText write) = value.elim 4 fun value => byteLen (write value) := by
    cases value <;> rfl
  have facts : (page.factTexts json).map (fun field => (field.1, byteLen field.2)) =
      page.facts json.sizes := by
    simp only [TurnResultPage.factTexts, TurnResultPage.facts, List.map_append, optional_text_len,
      Option.map_map, Function.comp_def, number_text_len, string_text_len]
    rfl
  rw [TurnResultPage.json, object_text_len]
  simp only [List.map_append, List.map_cons, List.map_nil, facts, elim_len, number_text_len,
    string_text_len, bool_text_len, cursor_json_len, chunks_json_len]
  rfl

end Writing

section Lengths

variable (sizes : TurnSizes LoopId Payload) (base : TurnResultPage LoopId Payload)

theorem turn_fields (page : TurnResultPage LoopId Payload) :
    page.encodedLen sizes =
      ({ page with items := [], nextCursor := none } : TurnResultPage LoopId Payload).encodedLen
        sizes - 6 +
      arrayLen (page.items.map ReadItemChunk.encodedLen) + encodedCursor page.nextCursor ∧
    6 ≤ ({ page with items := [], nextCursor := none } :
      TurnResultPage LoopId Payload).encodedLen sizes := by
  have empty : arrayLen [] = 2 := rfl
  have facts : ({ page with items := [], nextCursor := none } :
      TurnResultPage LoopId Payload).facts sizes = page.facts sizes := rfl
  simp only [TurnResultPage.encodedLen, facts, objectLen, List.cons_append, List.nil_append,
    List.map_cons, List.map_append, List.map_nil, empty, encodedCursor, Option.elim_none,
    array_len_cons, List.sum_cons, List.sum_append, List.length_cons, List.length_append]
  omega

/-- A page takes the bytes of its empty form, of its items and its cursor. -/
theorem turn_len (fresh : base.items = [] ∧ base.nextCursor = none) (items : List ReadItemChunk)
    (nextCursor : Option ReadCursor) :
    ({ base with items := items, nextCursor := nextCursor } :
      TurnResultPage LoopId Payload).encodedLen sizes =
      (turnFrame sizes base).pageBytes items nextCursor := by
  obtain ⟨fields, least⟩ := turn_fields sizes
    ({ base with items := items, nextCursor := nextCursor } : TurnResultPage LoopId Payload)
  have same : ({ base with items := [], nextCursor := none } : TurnResultPage LoopId Payload) =
      base := by
    rw [← fresh.1, ← fresh.2]
  dsimp only at fields least
  rw [same] at fields least
  rw [fields, arrayLen, List.length_map, PageFrame.pageBytes, chunksLen]
  dsimp only [turnFrame]
  omega

theorem turn_measures (fresh : base.items = [] ∧ base.nextCursor = none)
    (calls : TurnCalls LoopId Payload) (request : TurnResultRequest LoopId) :
    ((calls.measured sizes).packing request base).Measures (turnFrame sizes base) where
  encodedLen := rfl
  headerBytes := by
    intro existing candidate next
    have least := (turn_fields sizes base).2
    have same : ({ base with items := [], nextCursor := none } : TurnResultPage LoopId Payload) =
        base := by
      rw [← fresh.1, ← fresh.2]
    rw [same] at least
    dsimp only [TurnCalls.packing, TurnCalls.measured, turnFrame]
    congr 1
    omega

end Lengths

section Supplying

variable {externals : Externals LoopId Payload Replay Digest}
  {pages : PageExternals LoopId Payload Digest} {turns : TurnExternals Payload}
  {texts : List (List Char)} {cursor : ReadCursor} {limit total maxBytes : Nat}

/-- The texts that a page may show: from the item of its cursor on, within the limit. -/
def pageTexts (texts : List (List Char)) (cursor : ReadCursor) (limit total : Nat) :
    List (List Char) :=
  (texts.drop cursor.item).take (min (cursor.item + limit) total - cursor.item)

/-- What is encoded for a page: all that it may show, or enough of it to fill the page. -/
def Supplies (texts : List (List Char)) (cursor : ReadCursor) (limit total maxBytes : Nat)
    (encoded : List (Nat × List Char)) : Prop :=
  ∃ supplied more, pageTexts texts cursor limit total = supplied ++ more ∧
    encoded = placed cursor.item supplied ∧
    (more = [] ∨ maxBytes ≤ unreadBytes supplied cursor.offset)

/-- A page may show what its limit allows of all texts. -/
theorem page_texts_whole (texts : List (List Char)) (cursor : ReadCursor) (limit : Nat) :
    pageTexts texts cursor limit texts.length = (texts.drop cursor.item).take limit := by
  rw [pageTexts, List.take_eq_take_iff, List.length_drop]
  omega

theorem placed_supplied (first : Nat) (supplied : List (List Char)) :
    (placed first supplied).map .ok = suppliedFrom first supplied := by
  induction supplied generalizing first with
  | nil => rfl
  | cons json rest inductionHypothesis =>
    rw [placed_cons, supplied_from_cons, List.map_cons, inductionHypothesis]

/-- The bytes that the items of a page add are those that are not yet read. -/
theorem bytes_of_placed (range : PageRange) (supplied : List (List Char)) :
    range.bytesOf (placed range.cursor.item supplied) =
      unreadBytes supplied range.cursor.offset := by
  have others (first : Nat) (later : range.cursor.item < first) (supplied : List (List Char)) :
      range.bytesOf (placed first supplied) = (supplied.map byteLen).sum := by
    induction supplied generalizing first with
    | nil => rfl
    | cons json rest inductionHypothesis =>
      have tail := inductionHypothesis (first + 1) (Nat.lt_succ_of_lt later)
      rw [PageRange.bytesOf] at tail ⊢
      rw [placed_cons, List.map_cons, List.sum_cons, tail, if_neg (by dsimp only; omega),
        List.map_cons, List.sum_cons, Nat.sub_zero]
  cases supplied with
  | nil => rfl
  | cons json rest =>
    have tail := others (range.cursor.item + 1) (Nat.lt_succ_self _) rest
    rw [PageRange.bytesOf] at tail ⊢
    rw [placed_cons, List.map_cons, List.sum_cons, tail, if_pos rfl, unreadBytes]

/-- Where a view shows a page from its first item on, what it encodes is enough for it. -/
theorem view_supplies (range : PageRange) {encoded : List (Nat × List Char)}
    {shown : List (List Char)} {count : Nat}
    (taken : encoded = (placed range.cursor.item shown).take count)
    (filled : (placed range.cursor.item shown).length ≤ count ∨
      range.maxBytes ≤ range.bytesOf ((placed range.cursor.item shown).take count)) :
    ∃ supplied more, shown = supplied ++ more ∧ encoded = placed range.cursor.item supplied ∧
      (more = [] ∨ range.maxBytes ≤ unreadBytes supplied range.cursor.offset) := by
  refine ⟨shown.take count, shown.drop count, (List.take_append_drop count shown).symm, ?_, ?_⟩
  · rw [taken, placed_take]
  · rcases filled with all | full
    · rw [placed_length] at all
      exact Or.inl (List.drop_eq_nil_of_le all)
    · rw [placed_take, bytes_of_placed] at full
      exact Or.inr full

/-- A prepared page is supplied from the texts of its items. -/
theorem prepared_supplies {items : List (HistoryItem Payload Replay)} {start stop : Nat}
    {interrupted : Option Payload} {budget : ViewPoint → Bool} {identity : Option (String × Nat)}
    {prepared : PreparedTurnItems}
    (done : prepareTurnView externals pages turns items start stop interrupted cursor limit maxBytes
      budget identity = .ok prepared) :
    cursor.item ≤ prepared.total ∧
      (∀ resultId total, identity = some (resultId, total) → prepared.total = total) ∧
      Supplies (itemTexts turns (((items.take stop).drop start).filterMap SourceItem.fromHistory))
        cursor limit prepared.total maxBytes prepared.encoded := by
  obtain ⟨_, inside, view, looped, _, total, encoded⟩ := prepare_turn_view_ok done
  obtain ⟨count, taken, filled⟩ := view_loop_filled looped
  rw [List.nil_append] at taken
  rw [Nat.zero_add] at filled
  rw [total, encoded]
  have within := cursor_inside inside
  generalize ((items.take stop).drop start).filterMap SourceItem.fromHistory = shown at *
  refine ⟨within, ?_, ?_⟩
  · rintro resultId total rfl
    rfl
  · cases identity with
    | none =>
      have count_eq : shown.length = (itemTexts turns shown).length := by
        rw [itemTexts, List.length_map]
      simp only [Option.isNone_none, if_true, Option.map_none, Option.getD_none, count_eq,
        page_window] at taken filled ⊢
      rw [Supplies, page_texts_whole]
      exact view_supplies ⟨cursor, min (cursor.item + limit) (itemTexts turns shown).length,
        maxBytes⟩ taken filled
    | some known =>
      have cut : itemTexts turns ((shown.drop cursor.item).take
          (min (cursor.item + limit) known.2 - cursor.item)) =
          pageTexts (itemTexts turns shown) cursor limit known.2 := by
        rw [pageTexts, itemTexts, itemTexts, List.map_take, List.map_drop]
      simp only [Option.isNone_some, Bool.false_eq_true, if_false, Option.map_some,
        Option.getD_some, cut] at taken filled ⊢
      rw [pageTexts, window_of_page] at taken filled
      exact view_supplies ⟨cursor, min (cursor.item + limit) known.2, maxBytes⟩ taken filled

end Supplying

section Assembling

variable {sizes : TurnSizes LoopId Payload} {calls : TurnCalls LoopId Payload}
  {request : TurnResultRequest LoopId} {base page : TurnResultPage LoopId Payload}
  {texts : List (List Char)} {encoded : List (Nat × List Char)}

/-- A page without its items and its cursor. -/
def TurnResultPage.blank (page : TurnResultPage LoopId Payload) : TurnResultPage LoopId Payload :=
  { page with items := [], nextCursor := none }

/-- The length of a page with other items and another cursor. -/
def TurnResultPage.sized (sizes : TurnSizes LoopId Payload) (page : TurnResultPage LoopId Payload)
    (items : List ReadItemChunk) (nextCursor : Option ReadCursor) : Nat :=
  ({ page with items := items, nextCursor := nextCursor } :
    TurnResultPage LoopId Payload).encodedLen sizes

theorem blank_fresh (fresh : base.items = [] ∧ base.nextCursor = none) : base.blank = base := by
  rw [TurnResultPage.blank, ← fresh.1, ← fresh.2]

theorem assemble_ok (done : assembleTurnPage calls request base encoded = .ok page) :
    packItems (calls.packing request base) request.start base.total (encoded.map .ok) =
        .ok (page.items, page.nextCursor) ∧
      page = { base with items := page.items, nextCursor := page.nextCursor } := by
  unfold assembleTurnPage at done
  split at done
  · cases done
  · rename_i packed
    cases done
    exact ⟨packed, rfl⟩

/-- A page that is packed from some texts: what is accounted for is its length, which is
within the limit, and no page with more of the texts is. -/
structure PackedFrom (sizes : TurnSizes LoopId Payload) (calls : TurnCalls LoopId Payload)
    (request : TurnResultRequest LoopId) (texts : List (List Char))
    (page : TurnResultPage LoopId Payload) : Prop where
  exact : ∃ encoded,
    assembleTurnPage (calls.measured sizes) request page.blank encoded = .ok page ∧
    accountedBytes ((calls.measured sizes).packing request page.blank) request.start page.total
      (encoded.map .ok) = .ok (page.encodedLen sizes)
  within : page.encodedLen sizes ≤ request.bound
  longest : Longest (pageTexts texts request.start request.limit page.total) request.start
    page.total request.bound (page.sized sizes) page.items page.nextCursor

theorem assemble_packed (fresh : base.items = [] ∧ base.nextCursor = none)
    (inside : request.start.item ≤ base.total)
    (supplies : Supplies texts request.start request.limit base.total request.bound encoded)
    (done : assembleTurnPage (calls.measured sizes) request base encoded = .ok page) :
    PackedFrom sizes calls request texts page := by
  obtain ⟨packed, same⟩ := assemble_ok done
  have blank : page.blank = base := by
    rw [same]
    exact blank_fresh fresh
  have total : page.total = base.total := by rw [same]
  have length (items : List ReadItemChunk) (nextCursor : Option ReadCursor) :
      page.sized sizes items nextCursor = (turnFrame sizes base).pageBytes items nextCursor := by
    rw [← turn_len sizes base fresh, same]
    rfl
  have own : page.encodedLen sizes =
      (turnFrame sizes base).pageBytes page.items page.nextCursor := length _ _
  have measures := turn_measures sizes base fresh calls request
  obtain ⟨accounted, within⟩ := pack_items_exact measures packed
  constructor
  · refine ⟨encoded, by rw [blank, done], ?_⟩
    rw [blank, total, own]
    exact accounted
  · rw [own]
    exact within
  · obtain ⟨supplied, more, whole, rfl, filled⟩ := supplies
    have fits : request.start.item + supplied.length ≤ base.total := by
      have count := congrArg List.length whole
      rw [pageTexts, List.length_take, List.length_append] at count
      omega
    have sized : page.sized sizes = (turnFrame sizes base).pageBytes := by
      funext items nextCursor
      exact length items nextCursor
    rw [placed_supplied] at packed
    rw [total, whole, sized]
    exact (pack_items_longest measures fits packed).supply more filled

end Assembling

section Turns

variable [DecidableEq LoopId] (sizes : TurnSizes LoopId Payload)
  (calls : TurnCalls LoopId Payload) (request : TurnResultRequest LoopId)
  (externals : Externals LoopId Payload Replay Digest)
  (pages : PageExternals LoopId Payload Digest) (turns : TurnExternals Payload)
  (identities : List (StoredIdentity LoopId Payload))
  (session : Option (TurnSession LoopId Payload Replay Digest))

/-- The texts of a turn: of its retained source, of its items in memory, whose place an
identity may keep, or of the record that is read. -/
inductive TurnTexts : List (List Char) → Prop
  | retained {loaded : TurnSession LoopId Payload Replay Digest} {entry : Completion}
      {source : PreparedSource Payload} (found : session = some loaded)
      (kept : loaded.lookup request.loopId = some (entry, some source)) : TurnTexts source.items
  | resident {loaded : TurnSession LoopId Payload Replay Digest} {place : LoopItems}
      {start stop : Nat} (found : session = some loaded)
      (located : loopItemSource pages loaded.index request.loopId scanLimits.maxLines = some place)
      (known : start = place.start ∧ stop = place.stop ∨
        ∃ identity ∈ identities, identity.key = ⟨loaded.load, place.sourceRevision,
          request.loopId⟩ ∧ start = identity.start ∧ stop = identity.stop) :
      TurnTexts (itemTexts turns
        (((loaded.history.take stop).drop start).filterMap SourceItem.fromHistory))
  | stored {index : Option (List (HistoryLine LoopId Digest))}
      {record : StoredLoopRecord LoopId Payload Replay}
      (read : readLoopRecord externals index request.loopId scanLimits calls.begun
        calls.answersFrom = .ok (some record)) :
      TurnTexts (itemTexts turns (record.items.filterMap SourceItem.fromHistory))

/-- An answer whose page is packed from texts of the turn, or has no items and fits. -/
def Measured (answer : Except TurnError (TurnResultPage LoopId Payload)) : Prop :=
  ∀ page, answer = .ok page →
    page.items = [] ∧ page.nextCursor = none ∧ page.encodedLen sizes ≤ request.bound ∨
    ∃ texts, TurnTexts calls request externals pages turns identities session texts ∧
      PackedFrom sizes calls request texts page

variable {sizes calls request externals pages turns identities session}

theorem refused_measured (error : TurnError) :
    Measured sizes calls request externals pages turns identities session (.error error) :=
  fun _ done => nomatch done

theorem itemless_measured {page : TurnResultPage LoopId Payload} (empty : page.items = [])
    (ended : page.nextCursor = none) :
    Measured sizes calls request externals pages turns identities session
      (if request.bound < page.encodedLen sizes then .error (.read .invalidArguments)
        else .ok page) := by
  intro other done
  split at done
  · cases done
  · rename_i fits
    cases done
    exact Or.inl ⟨empty, ended, Nat.le_of_not_lt fits⟩

theorem unavailable_measured {reason : SessionState.UnavailableReason}
    {outcome : Option (LoopOutcomeView Payload)}
    {persistence : Option SessionState.TurnPersistence} {uncertain : Bool} :
    Measured sizes calls request externals pages turns identities session
      (unavailableTurnPage (calls.measured sizes) request reason outcome persistence uncertain) :=
  itemless_measured rfl rfl

theorem retained_measured {loaded : TurnSession LoopId Payload Replay Digest} {entry : Completion}
    {source : PreparedSource Payload} {uncertain : Bool} (found : session = some loaded)
    (kept : loaded.lookup request.loopId = some (entry, some source)) :
    Measured sizes calls request externals pages turns identities session
      (retainedTurnPage (calls.measured sizes) request source uncertain) := by
  intro page done
  unfold retainedTurnPage at done
  split at done
  · cases done
  · dsimp only at done
    split at done
    · cases done
    · rename_i inside
      refine Or.inr ⟨source.items, TurnTexts.retained found kept, ?_⟩
      refine assemble_packed ⟨rfl, rfl⟩ (cursor_inside inside) ?_ done
      refine ⟨pageTexts source.items request.start request.limit source.items.length, [],
        (List.append_nil _).symm, ?_, Or.inl rfl⟩
      rw [pageTexts, List.drop_take]

omit [DecidableEq LoopId] in
/-- The page of a prepared view is packed from the items of that view. -/
theorem prepared_packed {items : List (HistoryItem Payload Replay)} {start stop : Nat}
    {interrupted : Option Payload} {identity : Option (String × Nat)}
    {prepared : PreparedTurnItems} {metadata : ReadTurnSummary LoopId Payload}
    {resultId : Option String} {total : Nat} {page : TurnResultPage LoopId Payload}
    (prepares : prepareTurnView externals pages turns items start stop interrupted request.start
      request.limit request.bound calls.viewBudget identity = .ok prepared)
    (same : prepared.total = total)
    (done : assembleTurnPage (calls.measured sizes) request
      (storedBase request turns metadata resultId total) prepared.encoded = .ok page) :
    PackedFrom sizes calls request
      (itemTexts turns (((items.take stop).drop start).filterMap SourceItem.fromHistory))
      page := by
  obtain ⟨inside, _, supplies⟩ := prepared_supplies prepares
  rw [same] at inside supplies
  exact assemble_packed ⟨rfl, rfl⟩ inside supplies done

theorem cold_measured {index : Option (List (HistoryLine LoopId Digest))} :
    Measured sizes calls request externals pages turns identities session
      (coldTurnPage (calls.measured sizes) request externals pages turns index) := by
  intro page done
  unfold coldTurnPage at done
  split at done
  · cases done
  · exact unavailable_measured page done
  · rename_i record read
    unfold storedTurnPage at done
    split at done
    · cases done
    · rename_i prepared prepares
      split at done
      · cases done
      · have packed : PackedFrom sizes calls request _ page := prepared_packed prepares rfl done
        rw [List.take_length, List.drop_zero] at packed
        exact Or.inr ⟨_, TurnTexts.stored read, packed⟩

omit [DecidableEq LoopId] in
theorem identity_ok {identity : StoredIdentity LoopId Payload}
    {encoded : Except TurnError (List (Nat × List Char))} {page : TurnResultPage LoopId Payload}
    (done : identityPage calls request turns identity encoded = .ok page) :
    ∃ part, encoded = .ok part ∧ assembleTurnPage calls request
      (storedBase request turns identity.metadata (some identity.resultId) identity.total) part =
        .ok page := by
  unfold identityPage at done
  split at done
  · cases done
  · split at done
    · cases done
    · exact ⟨_, rfl, done⟩

theorem resident_measured {loaded : TurnSession LoopId Payload Replay Digest} {place : LoopItems}
    (found : session = some loaded)
    (located : loopItemSource pages loaded.index request.loopId scanLimits.maxLines = some place) :
    Measured sizes calls request externals pages turns identities session
      (residentStoredTurnPage (calls.measured sizes) request externals pages turns loaded identities
        place).1 := by
  intro page done
  unfold residentStoredTurnPage at done
  dsimp only at done
  split at done
  · rename_i identity search
    obtain ⟨encoded, view, assembled⟩ := identity_ok done
    obtain ⟨prepared, prepares, rfl⟩ := Results.map_ok.mp view
    have total := (prepared_supplies prepares).2.1 _ _ rfl
    have own := List.find?_some search
    rw [decide_eq_true_eq] at own
    refine Or.inr ⟨_, TurnTexts.resident found located ?_, prepared_packed prepares total assembled⟩
    exact Or.inr ⟨identity, List.mem_of_find?_eq_some search, own, rfl, rfl⟩
  · split at done
    · cases done
    · split at done
      · cases done
      · exact unavailable_measured page done
      · split at done
        · cases done
        · split at done
          · cases done
          · rename_i first prepares
            split at done
            · cases done
            · dsimp only at done
              obtain ⟨encoded, ⟨rfl⟩, assembled⟩ := identity_ok done
              refine Or.inr ⟨_, TurnTexts.resident found located (Or.inl ⟨rfl, rfl⟩), ?_⟩
              exact prepared_packed prepares rfl assembled

theorem settled_measured {loaded : TurnSession LoopId Payload Replay Digest}
    (found : session = some loaded) :
    Measured sizes calls request externals pages turns identities session
      (settledTurnPage (calls.measured sizes) request externals pages turns loaded
        identities).1 := by
  unfold settledTurnPage
  dsimp only
  split
  · split
    · exact refused_measured _
    · split
      · exact refused_measured _
      · exact itemless_measured rfl rfl
  · split
    · split
      · exact refused_measured _
      · exact unavailable_measured
    · split
      · rename_i place located
        split
        · exact resident_measured found located
        · exact cold_measured
      · exact cold_measured

theorem loaded_measured {loaded : TurnSession LoopId Payload Replay Digest}
    (found : session = some loaded) :
    Measured sizes calls request externals pages turns identities session
      (loadedTurnPage (calls.measured sizes) request externals pages turns loaded
        identities).1 := by
  unfold loadedTurnPage
  dsimp only
  split
  · split
    · exact refused_measured _
    · split
      · rename_i kept
        exact retained_measured found kept
      · split
        · split
          · exact refused_measured _
          · exact unavailable_measured
        · exact settled_measured found
      · exact settled_measured found
  · split
    · exact refused_measured _
    · exact settled_measured found

theorem turn_result_measured :
    Measured sizes calls request externals pages turns identities session
      (turnResult (calls.measured sizes) request externals pages turns identities session).1 := by
  unfold turnResult
  split
  · exact refused_measured _
  · split
    · exact refused_measured _
    · split
      · exact loaded_measured rfl
      · split
        · exact refused_measured _
        · exact cold_measured

variable (turns) in
/-- What is accounted for is the length of the answer, which is within the limit, and no
answer with more of what it may show is. For a page of a Session this holds however the
encoded items are supplied, and in the canonical view they are those of the lines that the
request asks for. A page of a turn is packed from the texts of its turn, as many as its
limit allows, or it has no items. -/
theorem page_sizes_are_exact
    (streams : ∀ digest first second,
      externals.update (externals.update digest first) second =
        externals.update digest (first ++ second))
    (hexes : ∀ digest, validSha256 (pages.digestHex digest) = true)
    (sourceJson : SourceJson Payload Replay) (world : World LoopId Payload Replay)
    (valid : world.Valid externals pages) (answers : SessionJson LoopId Payload)
    (json : TurnJson LoopId Payload) :
    (∀ result : ReadSessionResult LoopId Payload,
      byteLen (result.json answers) = result.encodedLen answers.sizes) ∧
    (∀ page : TurnResultPage LoopId Payload,
      byteLen (page.json json) = page.encodedLen json.sizes) ∧
    (∀ (page : HistoryReadPage LoopId Payload Replay) (cursor : ReadCursor) (maxBytes : Nat)
      (withinBudget : Checkpoint → Bool)
      (encoded : List (Except ReadPages.AgentError (Nat × List Char)))
      (result : ReadSessionResult LoopId Payload),
      packSession answers.sizes page cursor maxBytes withinBudget encoded = .ok result →
      accountedBytes (sessionPacking answers.sizes page maxBytes withinBudget) cursor
        page.totalItems encoded = .ok (result.encodedLen answers.sizes) ∧
      result.encodedLen answers.sizes ≤ maxBytes ∧
      ∀ supplied : List (List Char), cursor.item + supplied.length ≤ page.totalItems →
        List.Forall₂ (fun first second => ∀ value, first = .ok value → second = .ok value)
          encoded (suppliedFrom cursor.item supplied) →
        Longest supplied cursor page.totalItems maxBytes
          (fun items next => (sessionResult page items next).encodedLen answers.sizes) result.items
          result.nextCursor) ∧
    (∀ (clean : Prop) (limits : HistoryScanLimits) (reader : Reader)
      (calls : ReadCalls LoopId Payload Replay) (request : ReadSession)
      (result : ReadSessionResult LoopId Payload), reader.Answered clean world.lines →
      readSession sourceJson (world.historyPage externals pages limits reader) world.session
        (calls.measured answers.sizes) request = .ok result →
      ∃ shown, Shows externals pages (request.pageRequest world.session) world.lines shown ∧
        PackedLines externals pages sourceJson world request answers.sizes shown calls.withinBudget
          result) ∧
    ∀ (calls : TurnCalls LoopId Payload) (request : TurnResultRequest LoopId)
      (identities : List (StoredIdentity LoopId Payload))
      (session : Option (TurnSession LoopId Payload Replay Digest)),
      Measured json.sizes calls request externals pages turns identities session
        (turnResult (calls.measured json.sizes) request externals pages turns identities
          session).1 := by
  refine ⟨session_json_len answers, turn_json_len json, ?_, ?_, ?_⟩
  · intro page cursor maxBytes withinBudget encoded result packed
    obtain ⟨accounted, within⟩ := pack_session_exact packed
    refine ⟨accounted, within, ?_⟩
    intro supplied inside refined
    exact pack_session_longest refined inside packed
  · intro clean limits reader calls request result answered read
    exact read_measured streams hexes valid answered read
  · intro calls request identities session
    exact turn_result_measured

end Turns

section Examples

def nullAnswers : SessionJson Nat String :=
  { info := nullText, record := fun _ => nullText, projection := none }

def nullTurns : TurnJson Nat String :=
  { turn := fun _ => nullText, unavailableReason := fun _ => nullText, outcome := fun _ => nullText
    persistence := fun _ => nullText, usage := fun _ => nullText
    finalConfigRevision := fun _ => nullText, interrupted := fun _ => nullText }

def nullExternals : TurnExternals String :=
  { envelopeJson := fun _ => some nullText, interruptedJson := fun _ => some nullText
    pieces := fun _ => []
    facts := fun _ =>
      { outcome := .completed, requests := 1, toolRounds := 0, finalConfigRevision := 0
        completedAt := "" } }

/-- The answer with the sample prompt is as long as what is accounted for it. -/
theorem sample_page_is_exact :
    ∃ result shown, Shows sampleExternals samplePages
        (sampleRead.pageRequest sampleWorld.session) sampleWorld.lines shown ∧
      PackedLines sampleExternals samplePages sampleJson sampleWorld sampleRead nullAnswers.sizes
        shown sampleCalls.withinBudget result ∧
      byteLen (result.json nullAnswers) = result.encodedLen nullAnswers.sizes ∧
      result.total = 1 := by
  have shown : ((readSession sampleJson (sampleWorld.historyPage sampleExternals samplePages
      sampleLimits (.scanned (sampleAnswers 0))) sampleWorld.session
      (sampleCalls.measured nullAnswers.sizes) sampleRead).toOption.map
        (fun result => result.total)) = some 1 := by
    -- Texts are spelled out before the kernel evaluates the read.
    delta sampleWorld sampleAnswers sampleLine sampleExternals samplePages sampleBytes
    repeat rw [ascii_of_list]
    delta sampleJson
    simp only [String.toList_append]
    repeat rw [String.toList_ofList]
    decide +kernel
  obtain ⟨result, answered, same⟩ := Option.map_eq_some_iff.mp shown
  have valid : sampleWorld.Valid sampleExternals samplePages :=
    ⟨sample_history.formed, by simp [sampleWorld], by simp [sampleWorld], fun _ => rfl⟩
  obtain ⟨lengths, _, _, reads, _⟩ :=
    page_sizes_are_exact nullExternals (by simp [sampleExternals]) sample_hexes sampleJson
      sampleWorld valid nullAnswers nullTurns
  obtain ⟨shown, shows, packed⟩ := reads True sampleLimits (.scanned (sampleAnswers 0)) sampleCalls
    sampleRead result (sample_answers 0) (Results.to_option_some.mp answered)
  exact ⟨result, shown, shows, packed, lengths result, same⟩

end Examples

end MinicoreAgent.TurnResults
