import Mathlib.Algebra.BigOperators.Group.List.Basic
import Mathlib.Algebra.Ring.Int.Defs
import AIBuddy.Support.Closure

namespace AIBuddy

/-!
# The usage ledger

The store keeps what a session has used twice: in columns of its row, where amounts
accumulate, and in a ledger with a row for each provider call.  Sessions that are
older than the ledger have amounts in their columns only.  The first record after
that carries them into the ledger.  The totals of a session count its whole tree.

Costs are floating-point numbers in the store.  They are a parameter here, with the
operations that the queries use.
-/

/-! ## Token columns -/

/-- Token counts of one row; a missing count is null. -/
structure TokenCounts where
  inputTokens : Option Int
  outputTokens : Option Int
  totalTokens : Option Int
  cacheReadTokens : Option Int
  cacheWriteTokens : Option Int
deriving DecidableEq, Repr

/-- The five kinds of tokens. -/
inductive TokenColumn where
  | input
  | output
  | total
  | cacheRead
  | cacheWrite
deriving DecidableEq, Repr

def TokenCounts.column (counts : TokenCounts) : TokenColumn -> Option Int
  | .input => counts.inputTokens
  | .output => counts.outputTokens
  | .total => counts.totalTokens
  | .cacheRead => counts.cacheReadTokens
  | .cacheWrite => counts.cacheWriteTokens

/-- The counts that are computed column by column. -/
def TokenCounts.ofColumns (count : TokenColumn -> Option Int) : TokenCounts :=
  ⟨count .input, count .output, count .total, count .cacheRead, count .cacheWrite⟩

@[simp] theorem TokenCounts.column_ofColumns (count : TokenColumn -> Option Int) (column : TokenColumn) :
    (TokenCounts.ofColumns count).column column = count column := by
  cases column <;> rfl

/-! ## The store -/

/-- The arithmetic of costs in the queries.  `exceeds` compares with a tolerance, and
`atMost` without. -/
structure CostArithmetic (Cost : Type) where
  zero : Cost
  add : Cost -> Cost -> Cost
  subtract : Cost -> Cost -> Cost
  sum : List Cost -> Cost
  larger : Cost -> Cost -> Cost
  atMost : Cost -> Cost -> Bool
  exceeds : Cost -> Cost -> Bool

structure UsageLedgerRow (Cost : Type) where
  sessionId : String
  model : Option String
  tokens : TokenCounts
  cost : Option Cost
  costSource : Option String
  isCompaction : Bool
deriving DecidableEq

/-- The columns of a session that records of usage read and write. -/
structure SessionUsageRow (Cost : Type) where
  id : String
  parentSessionId : Option String
  scheduleId : Option String
  tokens : TokenCounts
  accumulated : TokenCounts
  accumulatedCost : Option Cost
deriving DecidableEq

/-- The two tables.  The ids of the sessions are a primary key. -/
structure UsageStore (Cost : Type) where
  sessions : List (SessionUsageRow Cost)
  usageLedger : List (UsageLedgerRow Cost)
  uniqueIds : (sessions.map SessionUsageRow.id).Nodup

/-- The usage of one provider call. -/
structure MessageUsage (Cost : Type) where
  tokens : TokenCounts
  cost : Option Cost
  costSource : Option String
  isCompaction : Bool
deriving DecidableEq

/-- What is passed to a record. -/
structure UsageRecord (Cost : Type) where
  sessionId : String
  scheduleId : Option String
  currentUsage : TokenCounts
  model : String
  ledger : MessageUsage Cost
deriving DecidableEq

section Store

variable {Cost : Type}

namespace UsageStore

/-- The ledger rows of a session. -/
def ledgerRows (store : UsageStore Cost) (sessionId : String) : List (UsageLedgerRow Cost) :=
  store.usageLedger.filter fun row => row.sessionId == sessionId

/-- The sum of a column over the ledger rows of a session; null counts as zero. -/
def ledgerSum (store : UsageStore Cost) (sessionId : String) (column : TokenColumn) : Int :=
  ((store.ledgerRows sessionId).map fun row => (row.tokens.column column).getD 0).sum

def ledgerCosts (store : UsageStore Cost) (sessionId : String) : List Cost :=
  (store.ledgerRows sessionId).filterMap UsageLedgerRow.cost

/-- The row of a session. -/
def session (store : UsageStore Cost) (sessionId : String) : Option (SessionUsageRow Cost) :=
  store.sessions.find? fun row => row.id == sessionId

/-- The accumulated value of a column of a session; null counts as zero. -/
def accumulated (store : UsageStore Cost) (sessionId : String) (column : TokenColumn) : Int :=
  ((store.session sessionId).bind fun row => row.accumulated.column column).getD 0

end UsageStore

/-! ## Recording usage -/

/-- Whether the accumulated values of a session run ahead of its ledger, as the query
asks. -/
def carriesForward (costs : CostArithmetic Cost) (store : UsageStore Cost) (row : SessionUsageRow Cost) : Bool :=
  decide ((row.accumulated.inputTokens.getD 0) > store.ledgerSum row.id .input) ||
    decide ((row.accumulated.outputTokens.getD 0) > store.ledgerSum row.id .output) ||
    decide ((row.accumulated.totalTokens.getD 0) > store.ledgerSum row.id .total) ||
    costs.exceeds (row.accumulatedCost.getD costs.zero) (costs.sum (store.ledgerCosts row.id))

/-- The ledger row for what a session has used beyond its ledger. -/
def carriedForwardRow (costs : CostArithmetic Cost) (store : UsageStore Cost) (row : SessionUsageRow Cost) :
    UsageLedgerRow Cost where
  sessionId := row.id
  model := none
  tokens := TokenCounts.ofColumns fun column =>
    some (max ((row.accumulated.column column).getD 0 - store.ledgerSum row.id column) 0)
  cost := row.accumulatedCost.bind fun accumulated =>
    let ledgerCost := costs.sum (store.ledgerCosts row.id)
    if costs.atMost accumulated ledgerCost then none else some (costs.subtract accumulated ledgerCost)
  costSource := some "carried_forward"
  isCompaction := false

/-- Add the usage of a call to the columns of a session. -/
def accumulateUsage (costs : CostArithmetic Cost) (record : UsageRecord Cost) (row : SessionUsageRow Cost) :
    SessionUsageRow Cost :=
  { row with
    scheduleId := record.scheduleId
    tokens := record.currentUsage
    accumulated := TokenCounts.ofColumns fun column =>
      some ((row.accumulated.column column).getD 0 + (record.ledger.tokens.column column).getD 0)
    accumulatedCost :=
      match record.ledger.cost with
      | none => row.accumulatedCost
      | some cost => some (costs.add (row.accumulatedCost.getD costs.zero) cost) }

/-- The ledger row of a call. -/
def usageLedgerRow (sessionId : String) (model : Option String) (usage : MessageUsage Cost) :
    UsageLedgerRow Cost :=
  ⟨sessionId, model, usage.tokens, usage.cost, usage.costSource, usage.isCompaction⟩

/-- The sessions after the usage of a call was added to one of them. -/
def accumulateSessions (costs : CostArithmetic Cost) (record : UsageRecord Cost)
    (sessions : List (SessionUsageRow Cost)) : List (SessionUsageRow Cost) :=
  sessions.map fun row => if row.id = record.sessionId then accumulateUsage costs record row else row

theorem accumulateSessions_ids (costs : CostArithmetic Cost) (record : UsageRecord Cost)
    (sessions : List (SessionUsageRow Cost)) :
    (accumulateSessions costs record sessions).map SessionUsageRow.id = sessions.map SessionUsageRow.id := by
  rw [accumulateSessions, List.map_map]
  apply List.map_congr_left
  intro row _
  simp only [Function.comp_apply]
  split
  · rfl
  · rfl

/-- Record the usage of a call.  The ledger refers to existing sessions only, so that
nothing is stored for a session that does not exist. -/
def recordUsageMetrics (costs : CostArithmetic Cost) (record : UsageRecord Cost) (store : UsageStore Cost) :
    Except String (UsageStore Cost) :=
  match store.session record.sessionId with
  | none => .error "FOREIGN KEY constraint failed"
  | some row =>
      let carried := if carriesForward costs store row then [carriedForwardRow costs store row] else []
      .ok {
        sessions := accumulateSessions costs record store.sessions
        usageLedger := store.usageLedger ++ carried ++
          [usageLedgerRow record.sessionId (some record.model) record.ledger]
        uniqueIds := accumulateSessions_ids costs record store.sessions ▸ store.uniqueIds }

/-! ## Totals -/

/-- The sessions of the tree below a session, itself included. -/
def sessionTree (store : UsageStore Cost) (sessionId : String) : List String :=
  Closure.closure
    (fun parent child => store.sessions.any fun row => row.id == child && row.parentSessionId == some parent)
    (store.sessions.map SessionUsageRow.id)
    (fun id => id == sessionId && (store.sessions.map SessionUsageRow.id).contains id)

/-- What a session has used of a column: the larger of its two accounts. -/
def largerAccount (store : UsageStore Cost) (column : TokenColumn) (sessionId : String) : Int :=
  max (store.accumulated sessionId column) (store.ledgerSum sessionId column)

/-- The use of a column in a whole tree, before it is stored as a 32-bit number. -/
def treeUsage (store : UsageStore Cost) (sessionId : String) (column : TokenColumn) : Int :=
  ((sessionTree store sessionId).map (largerAccount store column)).sum

/-- The largest 32-bit number. -/
def maxCount : Int := 2147483647

/-- A count as a 32-bit number; a count that does not fit is the largest number. -/
def saturateCount (count : Int) : Int :=
  if -2147483648 ≤ count ∧ count ≤ maxCount then count else maxCount

def largerCost (costs : CostArithmetic Cost) (store : UsageStore Cost) (sessionId : String) : Option Cost :=
  let accumulatedCost := (store.session sessionId).bind SessionUsageRow.accumulatedCost
  match accumulatedCost, store.ledgerCosts sessionId with
  | none, [] => none
  | _, [] => some (costs.larger (accumulatedCost.getD costs.zero) costs.zero)
  | _, ledger => some (costs.larger (accumulatedCost.getD costs.zero) (costs.sum ledger))

structure SessionUsageTotals (Cost : Type) where
  accumulatedUsage : TokenCounts
  accumulatedCost : Option Cost
deriving DecidableEq

def getSessionUsageTotals (costs : CostArithmetic Cost) (store : UsageStore Cost) (sessionId : String) :
    SessionUsageTotals Cost where
  accumulatedUsage := TokenCounts.ofColumns fun column => some (saturateCount (treeUsage store sessionId column))
  accumulatedCost := ((sessionTree store sessionId).filterMap (largerCost costs store)).foldl
    (fun total cost => some (costs.add (total.getD costs.zero) cost)) none

/-! ## What a record does -/

/-- The recorded amount of a column; a missing one counts as zero. -/
def UsageRecord.amount (record : UsageRecord Cost) (column : TokenColumn) : Int :=
  (record.ledger.tokens.column column).getD 0

variable {costs : CostArithmetic Cost} {record : UsageRecord Cost} {store next : UsageStore Cost}

theorem recordUsageMetrics_ok (recorded : recordUsageMetrics costs record store = .ok next) :
    Exists fun row => store.session record.sessionId = some row ∧
      next.sessions = accumulateSessions costs record store.sessions ∧
      next.usageLedger = store.usageLedger ++
        (if carriesForward costs store row then [carriedForwardRow costs store row] else []) ++
        [usageLedgerRow record.sessionId (some record.model) record.ledger] := by
  unfold recordUsageMetrics at recorded
  split at recorded
  · contradiction
  · rename_i row found
    cases recorded
    exact ⟨row, found, rfl, rfl⟩

theorem session_id {sessionId : String} {row : SessionUsageRow Cost}
    (found : store.session sessionId = some row) : row.id = sessionId := by
  simpa using List.find?_some found

theorem session_accumulateSessions (sessionId : String)
    (updated : next.sessions = accumulateSessions costs record store.sessions) :
    next.session sessionId = (store.session sessionId).map fun row =>
      if row.id = record.sessionId then accumulateUsage costs record row else row := by
  have sameIds : ((fun row : SessionUsageRow Cost => row.id == sessionId) ∘ fun row =>
      if row.id = record.sessionId then accumulateUsage costs record row else row) =
      fun row => row.id == sessionId := by
    funext row
    simp only [Function.comp_apply]
    split
    · rfl
    · rfl
  rw [UsageStore.session, UsageStore.session, updated, accumulateSessions, List.find?_map, sameIds]

theorem accumulated_record (recorded : recordUsageMetrics costs record store = .ok next) (sessionId : String)
    (column : TokenColumn) :
    next.accumulated sessionId column =
      store.accumulated sessionId column + if sessionId = record.sessionId then record.amount column else 0 := by
  rcases recordUsageMetrics_ok recorded with ⟨row, found, updated, _⟩
  rw [UsageStore.accumulated, session_accumulateSessions sessionId updated, UsageStore.accumulated]
  by_cases same : sessionId = record.sessionId
  · rw [same, found]
    simp [session_id found, accumulateUsage, UsageRecord.amount]
  · cases other : store.session sessionId with
    | none => simp [same]
    | some otherRow =>
        have different : otherRow.id ≠ record.sessionId := by
          rw [session_id other]
          exact same
        simp [same, different]

theorem ledgerSum_record {row : SessionUsageRow Cost} (found : store.session record.sessionId = some row)
    (recorded : recordUsageMetrics costs record store = .ok next) (sessionId : String) (column : TokenColumn) :
    next.ledgerSum sessionId column =
      if sessionId = record.sessionId then
        (if carriesForward costs store row then
          max (store.accumulated sessionId column) (store.ledgerSum sessionId column)
        else store.ledgerSum sessionId column) + record.amount column
      else store.ledgerSum sessionId column := by
  rcases recordUsageMetrics_ok recorded with ⟨otherRow, foundAgain, _, appended⟩
  have sameRow : otherRow = row := Option.some.inj (foundAgain.symm.trans found)
  subst sameRow
  have id := session_id found
  have accumulated : store.accumulated record.sessionId column = (otherRow.accumulated.column column).getD 0 := by
    rw [UsageStore.accumulated, found, Option.bind_some]
  by_cases same : sessionId = record.sessionId
  · subst same
    rw [if_pos rfl, UsageStore.ledgerSum, UsageStore.ledgerRows, appended]
    cases carries : carriesForward costs store otherRow with
    | true =>
        have sum : store.ledgerSum record.sessionId column +
            max ((otherRow.accumulated.column column).getD 0 - store.ledgerSum record.sessionId column) 0 =
            max (store.accumulated record.sessionId column) (store.ledgerSum record.sessionId column) := by
          rw [accumulated]
          omega
        simp only [if_true, List.filter_append, List.map_append, List.sum_append]
        rw [← sum]
        simp [carriedForwardRow, usageLedgerRow, id, UsageRecord.amount, UsageStore.ledgerSum,
          UsageStore.ledgerRows]
    | false =>
        simp [usageLedgerRow, UsageRecord.amount, UsageStore.ledgerSum, UsageStore.ledgerRows]
  · rw [if_neg same, UsageStore.ledgerSum, UsageStore.ledgerRows, appended]
    cases carries : carriesForward costs store otherRow with
    | true => simp [carriedForwardRow, usageLedgerRow, id, Ne.symm same, UsageStore.ledgerSum, UsageStore.ledgerRows]
    | false => simp [usageLedgerRow, Ne.symm same, UsageStore.ledgerSum, UsageStore.ledgerRows]

theorem largerAccount_record (recorded : recordUsageMetrics costs record store = .ok next) (sessionId : String)
    (column : TokenColumn) :
    largerAccount next column sessionId =
      largerAccount store column sessionId + if sessionId = record.sessionId then record.amount column else 0 := by
  rcases recordUsageMetrics_ok recorded with ⟨row, found, _, _⟩
  rw [largerAccount, largerAccount, accumulated_record recorded, ledgerSum_record found recorded]
  by_cases same : sessionId = record.sessionId
  · simp only [same, if_true]
    split
    · omega
    · omega
  · simp only [same, if_false]
    omega

theorem sessionTree_record (recorded : recordUsageMetrics costs record store = .ok next) (root : String) :
    sessionTree next root = sessionTree store root := by
  rcases recordUsageMetrics_ok recorded with ⟨_, _, updated, _⟩
  have sameEdges : (fun parent child => next.sessions.any fun row =>
      row.id == child && row.parentSessionId == some parent) =
      fun parent child => store.sessions.any fun row =>
        row.id == child && row.parentSessionId == some parent := by
    funext parent child
    rw [updated, accumulateSessions, List.any_map]
    congr 1
    funext row
    simp only [Function.comp_apply]
    split
    · rfl
    · rfl
  rw [sessionTree, sessionTree, sameEdges, updated, accumulateSessions_ids]

theorem mem_sessionTree_iff {store : UsageStore Cost} {root id : String} :
    id ∈ sessionTree store root ↔ root ∈ store.sessions.map SessionUsageRow.id ∧
      Relation.ReflTransGen (fun parent child => (store.sessions.any fun row =>
        row.id == child && row.parentSessionId == some parent) = true) root id := by
  rw [sessionTree, Closure.mem_closure_iff]
  · constructor
    · rintro ⟨source, started, path⟩
      simp only [Bool.and_eq_true, beq_iff_eq, List.contains_iff_mem] at started
      rw [← started.1]
      exact ⟨started.2, path⟩
    · rintro ⟨member, path⟩
      exact ⟨root, by simp [List.mem_map.mp member], path⟩
  · intro item started
    simp only [Bool.and_eq_true, List.contains_iff_mem] at started
    exact started.2
  · intro source target leads
    rw [List.any_eq_true] at leads
    rcases leads with ⟨row, member, edge⟩
    simp only [Bool.and_eq_true, beq_iff_eq] at edge
    exact List.mem_map.mpr ⟨row, member, edge.1⟩

theorem sessionTree_nodup (store : UsageStore Cost) (root : String) : (sessionTree store root).Nodup :=
  store.uniqueIds.filter _

theorem sum_map_add_at (value : String -> Int) (key : String) (amount : Int) {items : List String}
    (distinct : items.Nodup) :
    (items.map fun item => value item + if item = key then amount else 0).sum =
      (items.map value).sum + if key ∈ items then amount else 0 := by
  induction items with
  | nil => simp
  | cons item rest ih =>
      rw [List.nodup_cons] at distinct
      rw [List.map_cons, List.sum_cons, ih distinct.2, List.map_cons, List.sum_cons]
      by_cases same : item = key
      · have outside : key ∉ rest := same ▸ distinct.1
        simp only [same, if_true, outside, if_false, List.mem_cons, true_or]
        omega
      · have others : (key ∈ item :: rest) = (key ∈ rest) := by
          simp [Ne.symm same]
        simp only [same, if_false, others]
        omega

theorem treeUsage_record (recorded : recordUsageMetrics costs record store = .ok next) (root : String)
    (column : TokenColumn) :
    treeUsage next root column = treeUsage store root column +
      if record.sessionId ∈ sessionTree store root then record.amount column else 0 := by
  have accounts : largerAccount next column = fun sessionId =>
      largerAccount store column sessionId + if sessionId = record.sessionId then record.amount column else 0 := by
    funext sessionId
    exact largerAccount_record recorded sessionId column
  rw [treeUsage, sessionTree_record recorded, accounts, sum_map_add_at _ _ _ (sessionTree_nodup store root),
    treeUsage]

/-! ## Which records leave the ledger covering the columns -/

/-- The ledger of a session covers its accumulated values, and the totals have grown
by the recorded amounts, up to the largest number that is stored. -/
structure UsageRecorded (costs : CostArithmetic Cost) (record : UsageRecord Cost) (store next : UsageStore Cost) :
    Prop where
  covered : forall column, next.accumulated record.sessionId column ≤ next.ledgerSum record.sessionId column
  grown : forall root column, treeUsage next root column = treeUsage store root column +
    if record.sessionId ∈ sessionTree store root then record.amount column else 0
  reported : forall root column total, 0 ≤ record.amount column -> -2147483648 ≤ treeUsage store root column ->
    (getSessionUsageTotals costs store root).accumulatedUsage.column column = some total ->
    (getSessionUsageTotals costs next root).accumulatedUsage.column column =
      some (min (total + if record.sessionId ∈ sessionTree store root then record.amount column else 0) maxCount)

/-- What is asked before a record: the session is carried forward, or its ledger covers
the accumulated cache tokens. -/
def CacheCovered (costs : CostArithmetic Cost) (record : UsageRecord Cost) (store : UsageStore Cost) : Prop :=
  forall row, store.session record.sessionId = some row -> carriesForward costs store row = true ∨
    (store.accumulated record.sessionId .cacheRead ≤ store.ledgerSum record.sessionId .cacheRead ∧
      store.accumulated record.sessionId .cacheWrite ≤ store.ledgerSum record.sessionId .cacheWrite)

theorem covered_of_not_carries {row : SessionUsageRow Cost} {sessionId : String}
    (found : store.session sessionId = some row) (stays : carriesForward costs store row = false) :
    store.accumulated sessionId .input ≤ store.ledgerSum sessionId .input ∧
      store.accumulated sessionId .output ≤ store.ledgerSum sessionId .output ∧
      store.accumulated sessionId .total ≤ store.ledgerSum sessionId .total := by
  have accumulated : forall column,
      store.accumulated sessionId column = (row.accumulated.column column).getD 0 := by
    intro column
    rw [UsageStore.accumulated, found, Option.bind_some]
  simp only [carriesForward, session_id found, Bool.or_eq_false_iff, decide_eq_false_iff_not] at stays
  rw [accumulated, accumulated, accumulated]
  exact ⟨Int.not_lt.mp stays.1.1.1, Int.not_lt.mp stays.1.1.2, Int.not_lt.mp stays.1.2⟩

theorem saturateCount_add {count amount : Int} (low : -2147483648 ≤ count) (nonnegative : 0 ≤ amount) :
    saturateCount (count + amount) = min (saturateCount count + amount) maxCount := by
  unfold saturateCount maxCount
  split
  · split
    · omega
    · omega
  · split
    · omega
    · omega

theorem usageRecorded_iff (recorded : recordUsageMetrics costs record store = .ok next) :
    UsageRecorded costs record store next ↔ CacheCovered costs record store := by
  rcases recordUsageMetrics_ok recorded with ⟨row, found, _, _⟩
  have grows : forall column, next.accumulated record.sessionId column =
      store.accumulated record.sessionId column + record.amount column := by
    intro column
    rw [accumulated_record recorded, if_pos rfl]
  constructor
  · intro usage row' found'
    have sameRow : row' = row := Option.some.inj (found'.symm.trans found)
    subst sameRow
    cases carries : carriesForward costs store row' with
    | true => exact Or.inl rfl
    | false =>
        have ledger : forall column, next.ledgerSum record.sessionId column =
            store.ledgerSum record.sessionId column + record.amount column := by
          intro column
          rw [ledgerSum_record found recorded, if_pos rfl, carries, if_neg Bool.false_ne_true]
        have read := usage.covered .cacheRead
        have write := usage.covered .cacheWrite
        rw [grows, ledger] at read write
        exact Or.inr ⟨by omega, by omega⟩
  · intro cache
    refine ⟨?_, treeUsage_record recorded, ?_⟩
    · intro column
      rw [grows, ledgerSum_record found recorded, if_pos rfl]
      rcases cache row found with carries | covered
      · rw [if_pos carries]
        omega
      · split
        · omega
        · rename_i stays
          have compared := covered_of_not_carries found (Bool.not_eq_true _ ▸ stays)
          cases column with
          | input => omega
          | output => omega
          | total => omega
          | cacheRead => omega
          | cacheWrite => omega
    · intro root column total nonnegative low before
      simp only [getSessionUsageTotals, TokenCounts.column_ofColumns, Option.some.injEq] at before ⊢
      rw [treeUsage_record recorded, ← before]
      apply saturateCount_add low
      split
      · exact nonnegative
      · exact Int.le_refl 0

/-- A property of each record of a sequence that is stored, with the stores before
and after it. -/
def EachRecord (costs : CostArithmetic Cost)
    (property : UsageRecord Cost -> UsageStore Cost -> UsageStore Cost -> Prop) :
    List (UsageRecord Cost) -> UsageStore Cost -> Prop
  | [], _ => True
  | record :: rest, store =>
      match recordUsageMetrics costs record store with
      | .error _ => EachRecord costs property rest store
      | .ok next => property record store next ∧ EachRecord costs property rest next

/-- Over any sequence of records, from any store: after each record the ledger covers
the columns of its session and the totals have grown by its amounts, if and only if
before each record its session is carried forward or its cache tokens are covered. -/
theorem usage_ledger_covers_iff (costs : CostArithmetic Cost) (records : List (UsageRecord Cost))
    (store : UsageStore Cost) :
    EachRecord costs (UsageRecorded costs) records store ↔
      EachRecord costs (fun record before _ => CacheCovered costs record before) records store := by
  induction records generalizing store with
  | nil => exact Iff.rfl
  | cons record rest ih =>
      rw [EachRecord, EachRecord]
      cases recorded : recordUsageMetrics costs record store with
      | error message => exact ih store
      | ok next => exact and_congr (usageRecorded_iff recorded) (ih next)

end Store

/-! ## A session whose cache tokens stay behind -/

/-- Costs in whole units. -/
def CostArithmetic.units : CostArithmetic Int :=
  ⟨0, (· + ·), (· - ·), List.sum, max, fun left right => decide (left ≤ right),
    fun left right => decide (left > right)⟩

namespace CacheExample

/-- The ledger has the session's input and output, and not its cache tokens. -/
def store : UsageStore Int where
  sessions := [⟨"chat", none, none, ⟨none, none, none, none, none⟩, ⟨some 100, some 20, some 120, some 40, none⟩,
    none⟩]
  usageLedger := [⟨"chat", some "model", ⟨some 100, some 20, some 120, none, none⟩, none, none, false⟩]
  uniqueIds := by decide

def record : UsageRecord Int :=
  ⟨"chat", none, ⟨some 10, some 5, some 15, some 4, none⟩, "model",
    ⟨⟨some 10, some 5, some 15, some 4, none⟩, none, none, false⟩⟩

/-- After the record, the session has used 44 tokens from the cache, and its ledger
knows of 4. -/
theorem cache_stays_behind :
    ¬ EachRecord CostArithmetic.units (UsageRecorded CostArithmetic.units) [record] store := by
  intro each
  have covered := each.1.covered .cacheRead
  exact absurd covered (by decide)

end CacheExample

end AIBuddy
