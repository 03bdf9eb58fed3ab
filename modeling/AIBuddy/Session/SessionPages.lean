import Mathlib.Data.List.Sort
import Mathlib.Data.Prod.Lex
import Mathlib.Data.String.Basic
import Mathlib.Algebra.Order.Ring.Int
import AIBuddy.Support.Paging
import AIBuddy.Support.Text

namespace AIBuddy

/-!
# Pages of stored sessions

Sessions are listed page by page, the most recently active first.  The database
orders them by the time of their last message, brought to seconds, or by the time of
their last change; the cursor of the next page is computed from the last session of a
page after it has been read.  Times are seconds since 1970.
-/

namespace SessionPages

/-! ## Stored sessions -/

inductive SessionType where
  | user
  | scheduled
  | subAgent
  | hidden
  | terminal
  | gateway
  | acp
deriving DecidableEq, Repr

/-- What the listing reads of a message: when it was created, whether the user sees
it, and the texts of its content. -/
structure StoredMessage where
  createdTimestamp : Int
  userVisible : Bool
  texts : List String
deriving DecidableEq, Repr

structure Session where
  id : String
  workingDir : String
  sessionType : SessionType
  updatedAt : Int
  messages : List StoredMessage
deriving DecidableEq, Repr

/-- The stored sessions.  Their ids are the primary key. -/
structure SessionTable where
  sessions : List Session
  ids_nodup : (sessions.map Session.id).Nodup

/-! ## Times -/

def millisecondTimestampThreshold : Int := 10000000000

/-- The time of a message in seconds, as the database computes it. -/
def normalizedMessageTimestamp (createdTimestamp : Int) : Int :=
  if createdTimestamp > millisecondTimestampThreshold then createdTimestamp / 1000 else createdTimestamp

/-- The time of the last message, where there is one. -/
def lastMessageTimestamp (session : Session) : Option Int :=
  (session.messages.map fun message => normalizedMessageTimestamp message.createdTimestamp).max?

/-- What the database sorts by. -/
def sortTimestamp (session : Session) : Int :=
  (lastMessageTimestamp session).getD session.updatedAt

/-- The first and the last second of the calendar. -/
def minSecond : Int := -8334601228800

def maxSecond : Int := 8210266876799

/-- The date of a message, if the calendar has it. -/
def messageTimestampToDatetime (timestamp : Int) : Option Int :=
  let seconds := if timestamp > millisecondTimestampThreshold then timestamp / 1000 else timestamp
  if minSecond ≤ seconds ∧ seconds ≤ maxSecond then some seconds else none

def lastMessageAt (session : Session) : Option Int :=
  (lastMessageTimestamp session).bind messageTimestampToDatetime

/-- What the cursor is made from. -/
def sessionSortAt (session : Session) : Int :=
  (lastMessageAt session).getD session.updatedAt

/-! ## Filters -/

structure SessionListFilters where
  types : Option (List SessionType)
  workingDir : Option String
  keyword : Option String
  onlySessionsWithMessages : Bool

/-- The words of a query in lower case. -/
def keywordTerms (toLowercase : String -> String) (query : Option String) : List String :=
  (((query.getD "").toList.splitOnP Text.isWhitespace).filter fun word => !word.isEmpty).map
    fun word => toLowercase (String.ofList word)

/-- The database lowers ASCII letters only. -/
def lower (text : String) : String :=
  text.map Char.toLower

/-- Whether a text contains another one. -/
def contains (text term : String) : Bool :=
  text.toList.tails.any fun rest => term.toList.isPrefixOf rest

/-- Some visible message has a text with one of the terms. -/
def messageKeywordClause (terms : List String) (session : Session) : Bool :=
  session.messages.any fun message =>
    message.userVisible && message.texts.any fun text => terms.any fun term => contains (lower text) term

/-- The rows that the joins and the clauses of the query let through. -/
def matchesFilters (toLowercase : String -> String) (filters : SessionListFilters) (session : Session) : Bool :=
  let keywords := keywordTerms toLowercase filters.keyword
  (!filters.onlySessionsWithMessages || !session.messages.isEmpty) &&
  (match filters.types with
    | some types => types.contains session.sessionType
    | none => true) &&
  (match filters.workingDir with
    | some workingDir => session.workingDir == workingDir
    | none => true) &&
  (keywords.isEmpty || messageKeywordClause keywords session)

/-! ## The query -/

structure SessionListCursor where
  sortAt : Int
  sessionId : String
deriving DecidableEq, Repr

/-- The rows that stand behind the cursor. -/
def havingClause (cursor : Option SessionListCursor) (session : Session) : Bool :=
  match cursor with
  | some cursor =>
      decide (sortTimestamp session < cursor.sortAt ∨
        (sortTimestamp session = cursor.sortAt ∧ session.id < cursor.sessionId))
  | none => true

/-- The order of the rows: the later first, and the greater id first among equals. -/
def ordersBefore (first second : Session) : Bool :=
  decide (sortTimestamp second < sortTimestamp first ∨
    (sortTimestamp second = sortTimestamp first ∧ second.id ≤ first.id))

/-- The rows up to a limit that is bound as a signed number; a negative one is no
limit. -/
def limited (limit : Option Nat) (sessions : List Session) : List Session :=
  match limit with
  | some limit => if limit < 2 ^ 63 then sessions.take limit else sessions
  | none => sessions

variable (toLowercase : String -> String)

def listSessionsMatching (table : SessionTable) (filters : SessionListFilters)
    (cursor : Option SessionListCursor) (limit : Option Nat) : List Session :=
  if filters.types = some [] then []
  else
    limited limit
      (((table.sessions.filter (matchesFilters toLowercase filters)).filter (havingClause cursor)).insertionSort
        fun first second => ordersBefore first second = true)

/-- One page, and the cursor of the next one.  A page size that has no successor wraps
around in the limit. -/
def listSessionsPaged (table : SessionTable) (filters : SessionListFilters) (pageSize : Nat)
    (cursor : Option SessionListCursor) : List Session × Option SessionListCursor :=
  if filters.types = some [] ∨ pageSize = 0 then ([], none)
  else
    let sessions := listSessionsMatching toLowercase table filters cursor (some ((pageSize + 1) % 2 ^ 64))
    let nextCursor :=
      if pageSize < sessions.length then
        sessions[pageSize - 1]?.map fun anchor => ⟨sessionSortAt anchor, anchor.id⟩
      else none
    (sessions.take pageSize, nextCursor)

/-! ## What the pages are for -/

/-- All matching sessions, in the order of their last activity and then of their ids. -/
def expected (table : SessionTable) (filters : SessionListFilters) : List Session :=
  (table.sessions.filter (matchesFilters toLowercase filters)).insertionSort
    fun first second => ordersBefore first second = true

/-- Following the cursors from the first page visits every matching session once, in
order. -/
def VisitsAll (table : SessionTable) (filters : SessionListFilters) (pageSize : Nat) : Prop :=
  Paging.Follows (listSessionsPaged toLowercase table filters pageSize) none (expected toLowercase table filters)

/-- The cursor that is made from the last session of a page selects the next one and
not the session itself. -/
def CursorSeparates (anchor next : Session) : Prop :=
  sessionSortAt anchor ≤ sortTimestamp anchor ∧
    (sortTimestamp next < sessionSortAt anchor ∨
      (sortTimestamp next = sessionSortAt anchor ∧ next.id < anchor.id))

/-! ## The rows as an ordered list -/

/-- The place of a session among the rows. -/
def rank (session : Session) : Int ×ₗ String :=
  toLex (sortTimestamp session, session.id)

/-- The place of a cursor among the rows. -/
def position (cursor : SessionListCursor) : Int ×ₗ String :=
  toLex (cursor.sortAt, cursor.sessionId)

/-- The cursor made from the last session of a page. -/
def mark (session : Session) : SessionListCursor :=
  ⟨sessionSortAt session, session.id⟩

theorem ordersBefore_iff (first second : Session) : ordersBefore first second = true ↔ rank second ≤ rank first := by
  rw [ordersBefore, decide_eq_true_eq, rank, rank, Prod.Lex.toLex_le_toLex]

theorem havingClause_some (cursor : SessionListCursor) (session : Session) :
    havingClause (some cursor) session = decide (rank session < position cursor) := by
  rw [havingClause, rank, position, decide_eq_decide, Prod.Lex.toLex_lt_toLex]

/-- The cursor of a page separates in the library's sense exactly when it does in terms
of times and ids. -/
theorem separates_iff (anchor next : Session) :
    Paging.Separates rank position mark anchor next ↔ CursorSeparates anchor next := by
  rw [Paging.Separates, CursorSeparates, rank, rank, position, mark, Prod.Lex.toLex_le_toLex,
    Prod.Lex.toLex_lt_toLex]
  simp only [le_refl, and_true, le_iff_lt_or_eq]

instance orders_trans : IsTrans Session fun first second => ordersBefore first second = true where
  trans first second third before behind := by
    rw [ordersBefore_iff] at before behind ⊢
    exact le_trans behind before

instance orders_total : Std.Total fun first second : Session => ordersBefore first second = true where
  total first second := by
    rw [ordersBefore_iff, ordersBefore_iff]
    exact le_total _ _

section Rows

variable (table : SessionTable) (filters : SessionListFilters)

theorem mem_sessions_of_mem_expected {session : Session} (member : session ∈ expected toLowercase table filters) :
    session ∈ table.sessions :=
  List.mem_of_mem_filter ((List.mem_insertionSort _).mp member)

theorem eq_of_rank_eq {first second : Session} (firstStored : first ∈ table.sessions)
    (secondStored : second ∈ table.sessions) (same : rank first = rank second) : first = second := by
  have ids : first.id = second.id := (Prod.mk.inj (toLex.injective same)).2
  exact List.inj_on_of_nodup_map table.ids_nodup firstStored secondStored ids

theorem expected_nodup : (expected toLowercase table filters).Nodup := by
  rw [expected, (List.perm_insertionSort _ _).nodup_iff]
  exact (List.Nodup.of_map Session.id table.ids_nodup).filter _

theorem expected_ordered :
    (expected toLowercase table filters).Pairwise fun first second => rank second < rank first := by
  have sorted : (expected toLowercase table filters).Pairwise fun first second => ordersBefore first second = true :=
    List.pairwise_insertionSort _ _
  refine (sorted.and (expected_nodup toLowercase table filters)).imp_of_mem ?_
  rintro first second firstMember secondMember ⟨before, different⟩
  rw [ordersBefore_iff] at before
  refine lt_of_le_of_ne before fun same => different ?_
  exact eq_of_rank_eq table (mem_sessions_of_mem_expected toLowercase table filters firstMember)
    (mem_sessions_of_mem_expected toLowercase table filters secondMember) same.symm

theorem rows_eq_below (cursor : Option SessionListCursor) :
    (((table.sessions.filter (matchesFilters toLowercase filters)).filter (havingClause cursor)).insertionSort
        fun first second => ordersBefore first second = true) =
      Paging.below rank position (expected toLowercase table filters) cursor := by
  have same : Paging.below rank position (expected toLowercase table filters) cursor =
      (expected toLowercase table filters).filter (havingClause cursor) := by
    cases cursor with
    | none =>
        rw [Paging.below]
        exact (List.filter_eq_self.mpr fun _ _ => rfl).symm
    | some cursor =>
        rw [Paging.below]
        exact List.filter_congr fun session _ => (havingClause_some cursor session).symm
  rw [same]
  refine @List.Perm.eq_of_pairwise Session (fun first second => ordersBefore first second = true) _ _ ?_ ?_ ?_ ?_
  · intro first second firstMember secondMember before behind
    rw [ordersBefore_iff] at before behind
    have firstStored : first ∈ table.sessions :=
      List.mem_of_mem_filter (List.mem_of_mem_filter ((List.mem_insertionSort _).mp firstMember))
    have secondStored : second ∈ table.sessions :=
      mem_sessions_of_mem_expected toLowercase table filters (List.mem_of_mem_filter secondMember)
    exact eq_of_rank_eq table firstStored secondStored (le_antisymm behind before)
  · exact List.pairwise_insertionSort _ _
  · exact (List.pairwise_insertionSort _ _).filter _
  · exact (List.perm_insertionSort _ _).trans ((List.perm_insertionSort _ _).symm.filter _)

theorem expected_of_no_types (noTypes : filters.types = some []) : expected toLowercase table filters = [] := by
  have nothing : table.sessions.filter (matchesFilters toLowercase filters) = [] := by
    rw [List.filter_eq_nil_iff]
    intro session _
    simp [matchesFilters, noTypes]
  rw [expected, nothing]
  rfl

variable {filters} {pageSize : Nat}

theorem listSessionsPaged_eq (someTypes : filters.types ≠ some []) (positive : 1 ≤ pageSize)
    (bounded : pageSize + 1 < 2 ^ 64) :
    listSessionsPaged toLowercase table filters pageSize =
      Paging.page rank position mark pageSize (expected toLowercase table filters) := by
  funext cursor
  have stated : ¬ (filters.types = some [] ∨ pageSize = 0) := by
    rintro (noTypes | empty)
    · exact someTypes noTypes
    · omega
  rw [listSessionsPaged, if_neg stated, listSessionsMatching, if_neg someTypes, rows_eq_below,
    Nat.mod_eq_of_lt bounded, Paging.page, limited]
  generalize Paging.below rank position (expected toLowercase table filters) cursor = rows
  by_cases signed : pageSize + 1 < 2 ^ 63
  · simp only [if_pos signed, List.length_take, List.take_take, Nat.min_eq_left (Nat.le_succ pageSize)]
    by_cases more : pageSize < rows.length
    · have some : pageSize < min (pageSize + 1) rows.length := by omega
      have inside : pageSize - 1 < pageSize + 1 := by omega
      rw [if_pos more, if_pos some, List.getElem?_take, if_pos inside]
      rfl
    · have none : ¬ pageSize < min (pageSize + 1) rows.length := by omega
      rw [if_neg more, if_neg none]
  · rw [if_neg signed]
    rfl

theorem listSessionsPaged_of_wrapped (someTypes : filters.types ≠ some []) (wrapped : pageSize + 1 = 2 ^ 64)
    (cursor : Option SessionListCursor) : listSessionsPaged toLowercase table filters pageSize cursor = ([], none) := by
  have stated : ¬ (filters.types = some [] ∨ pageSize = 0) := by
    rintro (noTypes | empty)
    · exact someTypes noTypes
    · omega
  rw [listSessionsPaged, if_neg stated, listSessionsMatching, if_neg someTypes, wrapped, Nat.mod_self, limited]
  simp

end Rows

/-! ## Every session once -/

/-- The end of a page, with the session behind it. -/
def PagesSeparate (table : SessionTable) (filters : SessionListFilters) (pageSize : Nat) : Prop :=
  forall index anchor next,
    (expected toLowercase table filters)[(index + 1) * pageSize - 1]? = some anchor ->
    (expected toLowercase table filters)[(index + 1) * pageSize]? = some next -> CursorSeparates anchor next

/-- Following the cursors visits every matching session exactly once and in order if
and only if every cursor selects the session behind its page and not the last one of
the page, where the page size has a successor or nothing matches. -/
theorem visitsAll_iff (table : SessionTable) (filters : SessionListFilters) {pageSize : Nat}
    (positive : 1 ≤ pageSize) (isSize : pageSize < 2 ^ 64) :
    VisitsAll toLowercase table filters pageSize ↔
      (pageSize + 1 < 2 ^ 64 ∨ expected toLowercase table filters = []) ∧
        PagesSeparate toLowercase table filters pageSize := by
  rw [VisitsAll]
  by_cases noTypes : filters.types = some []
  · have nothing := expected_of_no_types toLowercase table filters noTypes
    have empty : listSessionsPaged toLowercase table filters pageSize none = ([], none) := by
      rw [listSessionsPaged, if_pos (Or.inl noTypes)]
    have visits : Paging.Follows (listSessionsPaged toLowercase table filters pageSize) none _ :=
      Paging.Follows.last (by rw [empty])
    rw [empty] at visits
    rw [nothing]
    refine iff_of_true visits ⟨Or.inr rfl, ?_⟩
    intro index anchor next atAnchor
    rw [nothing] at atAnchor
    cases atAnchor
  · by_cases bounded : pageSize + 1 < 2 ^ 64
    · rw [listSessionsPaged_eq toLowercase table noTypes positive bounded,
        Paging.follows_iff (expected_ordered toLowercase table filters) positive]
      simp only [Paging.SeparatesPages, separates_iff, PagesSeparate, bounded, true_or, true_and]
    · have wrapped : pageSize + 1 = 2 ^ 64 := by omega
      have empty := listSessionsPaged_of_wrapped toLowercase table noTypes wrapped none
      constructor
      · intro visits
        have visited := visits.eq_of_last (by rw [empty])
        rw [empty] at visited
        refine ⟨Or.inr visited, ?_⟩
        intro index anchor next atAnchor
        rw [visited] at atAnchor
        cases atAnchor
      · rintro ⟨small | nothing, _⟩
        · exact absurd small bounded
        · have visits : Paging.Follows (listSessionsPaged toLowercase table filters pageSize) none _ :=
            Paging.Follows.last (by rw [empty])
          rw [empty] at visits
          rw [nothing]
          exact visits

/-! ## Plain times -/

/-- Times for which the cursor is computed as the database computes its order: from the
beginning of the calendar up to the last millisecond time that is not taken for one
again after it has been brought to seconds. -/
def PlainTime (createdTimestamp : Int) : Prop :=
  minSecond ≤ createdTimestamp ∧ createdTimestamp < 1000 * (millisecondTimestampThreshold + 1)

instance decidablePlainTime (createdTimestamp : Int) : Decidable (PlainTime createdTimestamp) :=
  inferInstanceAs (Decidable (_ ∧ _))

theorem sessionSortAt_eq {session : Session}
    (plain : forall message, message ∈ session.messages -> PlainTime message.createdTimestamp) :
    sessionSortAt session = sortTimestamp session := by
  rw [sessionSortAt, sortTimestamp, lastMessageAt]
  cases last : lastMessageTimestamp session with
  | none => rfl
  | some timestamp =>
      rcases List.mem_map.mp (List.max?_mem last) with ⟨message, member, isLast⟩
      have isPlain := plain message member
      rw [PlainTime, minSecond, millisecondTimestampThreshold] at isPlain
      have normal : normalizedMessageTimestamp message.createdTimestamp ≤ millisecondTimestampThreshold ∧
          minSecond ≤ normalizedMessageTimestamp message.createdTimestamp := by
        rw [normalizedMessageTimestamp, minSecond, millisecondTimestampThreshold]
        split <;> omega
      rw [isLast, minSecond, millisecondTimestampThreshold] at normal
      have notAgain : ¬ timestamp > millisecondTimestampThreshold := by
        rw [millisecondTimestampThreshold]
        omega
      have inCalendar : minSecond ≤ timestamp ∧ timestamp ≤ maxSecond := by
        rw [minSecond, maxSecond]
        omega
      simp only [Option.bind_some, messageTimestampToDatetime, if_neg notAgain, if_pos inCalendar,
        Option.getD_some]

theorem pagesSeparate_of_plain (table : SessionTable) (filters : SessionListFilters) {pageSize : Nat}
    (positive : 1 ≤ pageSize)
    (plain : forall session, session ∈ table.sessions -> forall message, message ∈ session.messages ->
      PlainTime message.createdTimestamp) :
    PagesSeparate toLowercase table filters pageSize := by
  intro index anchor next atAnchor atNext
  have anchorStored := mem_sessions_of_mem_expected toLowercase table filters (List.mem_of_getElem? atAnchor)
  have same : sessionSortAt anchor = sortTimestamp anchor := sessionSortAt_eq (plain anchor anchorStored)
  have progress : 1 ≤ (index + 1) * pageSize := Nat.le_trans positive (Nat.le_mul_of_pos_left _ (Nat.succ_pos _))
  have before := Paging.rank_lt_of_lt (expected_ordered toLowercase table filters)
    (show (index + 1) * pageSize - 1 < (index + 1) * pageSize by omega) atAnchor atNext
  rw [rank, rank, Prod.Lex.toLex_lt_toLex] at before
  rw [CursorSeparates, same]
  exact ⟨le_refl _, before⟩

/-! ## Two sessions -/

def noFilters : SessionListFilters := ⟨none, none, none, false⟩

/-- A session with messages at the given times. -/
def sessionAt (id : String) (times : List Int) : Session :=
  ⟨id, "/work", .user, 1700000000, times.map fun time => ⟨time, true, []⟩⟩

def plainTable : SessionTable :=
  ⟨[sessionAt "20260101_1" [1767225600], sessionAt "20260101_2" [1767225600000], sessionAt "20260101_3" []],
    by decide⟩

theorem plain_table_visited : VisitsAll (fun word => word) plainTable noFilters 1 :=
  (visitsAll_iff _ plainTable noFilters (Nat.le_refl 1) (by decide)).mpr
    ⟨Or.inl (by decide), pagesSeparate_of_plain _ plainTable noFilters (Nat.le_refl 1) (by decide)⟩

/-- A session with a time in microseconds before one with a time in seconds. -/
def microsecondTable : SessionTable :=
  ⟨[sessionAt "20260101_1" [1767225600000000], sessionAt "20260101_2" [1767225600]], by decide⟩

/-- The cursor of the first page is brought to seconds once more, and the second session
does not stand behind it. -/
theorem second_session_skipped : ¬ VisitsAll (fun word => word) microsecondTable noFilters 1 := by
  have whole : expected (fun word => word) microsecondTable noFilters = microsecondTable.sessions := by
    decide +kernel
  have firstPage : listSessionsPaged (fun word => word) microsecondTable noFilters 1 none =
      ([sessionAt "20260101_1" [1767225600000000]], some ⟨1767225600, "20260101_1"⟩) := by
    decide +kernel
  have secondPage : listSessionsPaged (fun word => word) microsecondTable noFilters 1
      (some ⟨1767225600, "20260101_1"⟩) = ([], none) := by
    decide +kernel
  intro visits
  rw [VisitsAll, whole] at visits
  rcases visits.onwards (by rw [firstPage]) with ⟨rest, sessions, visited⟩
  have nothing := visited.eq_of_last (by rw [secondPage])
  rw [nothing, firstPage, secondPage] at sessions
  exact absurd (congrArg List.length sessions) (by decide)

end SessionPages
end AIBuddy
