import AIBuddy.Session.ImportFormats

namespace AIBuddy
namespace ImportFormats

/-!
# Usage figures of imported sessions

The converters add up the counts of usage records in 64 bits and keep the lower 32 bits of the
totals.  A small sum comes out right when nothing of it was left out, and a sum that is too
large for a figure only when what was counted happens to end in the bits of the largest figure.
-/

open OpenAi (asI64 toI32)

/-! ## Figures and counts -/

/-- The four figures of a usage. -/
inductive Figure where
  | input
  | output
  | cacheRead
  | cacheWrite
deriving DecidableEq

def Totals.figure (totals : Totals) : Figure -> Int
  | .input => totals.input
  | .output => totals.output
  | .cacheRead => totals.cacheRead
  | .cacheWrite => totals.cacheWrite

def Totals.ofFigures (figure : Figure -> Int) : Totals :=
  ⟨figure .input, figure .output, figure .cacheRead, figure .cacheWrite⟩

@[simp] theorem Totals.figure_ofFigures (figure : Figure -> Int) (name : Figure) :
    (Totals.ofFigures figure).figure name = figure name := by
  cases name <;> rfl

theorem Totals.ext_figure {left right : Totals} (same : forall figure, left.figure figure = right.figure figure) :
    left = right := by
  have figures : Totals.ofFigures left.figure = Totals.ofFigures right.figure :=
    congrArg Totals.ofFigures (funext same)
  exact figures

/-- A figure that is not reported is zero. -/
def usageFigure (usage : Usage) : Figure -> Int
  | .input => usage.inputTokens.getD 0
  | .output => usage.outputTokens.getD 0
  | .cacheRead => usage.cacheReadInputTokens.getD 0
  | .cacheWrite => usage.cacheWriteInputTokens.getD 0

/-- The cached tokens that are added to the input. -/
def folded (keys : UsageKeys) (counts : Totals) : Int :=
  if keys.folds then counts.cacheWrite + counts.cacheRead else 0

/-- What the counts of a record add to a figure. -/
def contribution (keys : UsageKeys) (counts : Totals) : Figure -> Int
  | .input => counts.input + folded keys counts
  | figure => counts.figure figure

/-- The largest total, and the largest figure. -/
def maxTotal : Int := 9223372036854775807

def maxFigure : Int := 2147483647

/-- The count that stands in a record. -/
def exactCount (record : JsonObject) (key : String) : Int :=
  match record.lookup key with
  | some (.number (.integer count)) => count
  | _ => 0

/-- The counts of a record are whole numbers that are not negative. -/
def UsageKeys.Whole (keys : UsageKeys) (record : JsonObject) : Prop :=
  forall key number, key ∈ keys.input :: keys.output :: keys.cacheRead :: keys.cacheWrite.toList ->
    record.lookup key = some (.number number) -> Exists fun count : Nat => number = .integer count

/-! ## Counts that are read -/

/-- A count that is read is the exact one, or was too large to be read. -/
structure Reads (counted exact : Int) : Prop where
  nonneg : 0 ≤ counted
  le : counted ≤ exact
  small : exact ≤ maxTotal -> counted = exact

theorem Reads.zero : Reads 0 0 :=
  ⟨Int.le_refl 0, Int.le_refl 0, fun _ => rfl⟩

theorem Reads.add {left right exactLeft exactRight : Int} (first : Reads left exactLeft)
    (second : Reads right exactRight) : Reads (left + right) (exactLeft + exactRight) := by
  have leftNonneg := first.nonneg
  have rightNonneg := second.nonneg
  have leftLe := first.le
  have rightLe := second.le
  refine ⟨by omega, by omega, fun small => ?_⟩
  have leftSame := first.small (by omega)
  have rightSame := second.small (by omega)
  omega

theorem reads_count {keys : UsageKeys} {record : JsonObject} (whole : keys.Whole record) {key : String}
    (member : key ∈ keys.input :: keys.output :: keys.cacheRead :: keys.cacheWrite.toList) :
    Reads (countOf record key) (exactCount record key) := by
  have numbers := fun number => whole key number member
  rw [countOf, exactCount]
  cases found : record.lookup key with
  | none => exact .zero
  | some value =>
      cases value with
      | number number =>
          rcases numbers number found with ⟨count, rfl⟩
          have nonneg : (0 : Int) ≤ count := Int.natCast_nonneg count
          rw [Option.bind_some, asI64]
          by_cases fits : -9223372036854775808 ≤ (count : Int) ∧ (count : Int) ≤ 9223372036854775807
          · rw [if_pos fits]
            exact ⟨nonneg, Int.le_refl _, fun _ => rfl⟩
          · rw [if_neg fits]
            refine ⟨Int.le_refl 0, nonneg, fun small => absurd ⟨?_, small⟩ fits⟩
            omega
      | null => exact .zero
      | bool => exact .zero
      | string => exact .zero
      | array => exact .zero
      | object => exact .zero

theorem reads_counts {keys : UsageKeys} {record : JsonObject} (whole : keys.Whole record) (figure : Figure) :
    Reads ((countsBy (countOf record) keys).figure figure) ((countsBy (exactCount record) keys).figure figure) := by
  cases figure with
  | input => exact reads_count whole List.mem_cons_self
  | output => exact reads_count whole (List.mem_cons_of_mem _ List.mem_cons_self)
  | cacheRead => exact reads_count whole (List.mem_cons_of_mem _ (List.mem_cons_of_mem _ List.mem_cons_self))
  | cacheWrite =>
      rw [Totals.figure, Totals.figure, countsBy, countsBy]
      cases named : keys.cacheWrite with
      | none => exact .zero
      | some key =>
          refine reads_count whole ?_
          rw [named]
          exact List.mem_cons_of_mem _ (List.mem_cons_of_mem _ (List.mem_cons_of_mem _ List.mem_cons_self))

theorem reads_contribution {keys : UsageKeys} {record : JsonObject} (whole : keys.Whole record) (figure : Figure) :
    Reads (contribution keys (countsBy (countOf record) keys) figure)
      (contribution keys (countsBy (exactCount record) keys) figure) := by
  cases figure with
  | input =>
      refine (reads_counts whole .input).add ?_
      rw [folded, folded]
      cases keys.folds with
      | true => exact (reads_counts whole .cacheWrite).add (reads_counts whole .cacheRead)
      | false => exact .zero
  | output => exact reads_counts whole .output
  | cacheRead => exact reads_counts whole .cacheRead
  | cacheWrite => exact reads_counts whole .cacheWrite

/-! ## Sums -/

/-- The sum of what records add to a figure. -/
def sumOf (keys : UsageKeys) (count : JsonObject -> String -> Int) (figure : Figure) : List JsonObject -> Int
  | [] => 0
  | record :: rest => contribution keys (countsBy (count record) keys) figure + sumOf keys count figure rest

theorem reads_sumOf {keys : UsageKeys} {records : List JsonObject}
    (whole : forall record, record ∈ records -> keys.Whole record) (figure : Figure) :
    Reads (sumOf keys countOf figure records) (sumOf keys exactCount figure records) := by
  induction records with
  | nil => exact .zero
  | cons record records ih =>
      have later := ih fun other member => whole other (List.mem_cons_of_mem _ member)
      exact (reads_contribution (whole record List.mem_cons_self) figure).add later

theorem sumOf_filterMap (keys : UsageKeys) (count : JsonObject -> String -> Int) (figure : Figure)
    (read : Json -> Option JsonObject) (kind : Json -> Bool) (lines : List Json) :
    sumOf keys count figure (lines.filterMap read) =
      sumOf keys count figure ((lines.filter kind).filterMap read) +
        sumOf keys count figure ((lines.filter fun line => !kind line).filterMap read) := by
  induction lines with
  | nil => rfl
  | cons line lines ih =>
      cases first : kind line <;> cases found : read line <;>
        simp only [List.filter_cons, first, List.filterMap_cons, found, sumOf, Bool.not_true, Bool.not_false,
          Bool.false_eq_true, if_true, if_false] <;> omega

theorem sumOf_cacheWrite {keys : UsageKeys} (unnamed : keys.cacheWrite = none) (count : JsonObject -> String -> Int)
    (records : List JsonObject) : sumOf keys count .cacheWrite records = 0 := by
  induction records with
  | nil => rfl
  | cons record records ih =>
      have none : contribution keys (countsBy (count record) keys) .cacheWrite = 0 := by
        change (keys.cacheWrite.map (count record)).getD 0 = 0
        rw [unnamed]
        rfl
      rw [sumOf, ih, none, Int.add_zero]

/-! ## Totals -/

theorem addI64_eq_some_iff {left right sum : Int} (low : 0 ≤ left) (high : 0 ≤ right) :
    addI64 left right = some sum ↔ sum = left + right ∧ left + right ≤ maxTotal := by
  have bounded : -9223372036854775808 ≤ left + right := by omega
  rw [addI64, maxTotal]
  by_cases fits : left + right ≤ 9223372036854775807
  · rw [if_pos ⟨bounded, fits⟩, Option.some.injEq]
    exact ⟨fun same => ⟨same.symm, fits⟩, fun both => both.1.symm⟩
  · rw [if_neg fun both => fits both.2]
    exact ⟨fun none => absurd none.symm (Option.some_ne_none _), fun both => absurd both.2 fits⟩

theorem folded_eq_some_iff {keys : UsageKeys} {counts : Totals} (cacheRead : 0 ≤ counts.cacheRead)
    (cacheWrite : 0 ≤ counts.cacheWrite) {input total : Int} (low : 0 ≤ input) (high : input ≤ maxTotal) :
    (if keys.folds then (addI64 counts.cacheWrite counts.cacheRead).bind (addI64 input) else some input) = some total ↔
      total = input + folded keys counts ∧ input + folded keys counts ≤ maxTotal := by
  rw [folded]
  cases keys.folds with
  | true =>
      rw [if_pos rfl, if_pos rfl, Option.bind_eq_some_iff]
      constructor
      · rintro ⟨cached, one, two⟩
        rcases (addI64_eq_some_iff cacheWrite cacheRead).mp one with ⟨rfl, fits⟩
        exact (addI64_eq_some_iff low (by omega)).mp two
      · rintro ⟨same, fits⟩
        exact ⟨_, (addI64_eq_some_iff cacheWrite cacheRead).mpr ⟨rfl, by omega⟩,
          (addI64_eq_some_iff low (by omega)).mpr ⟨same, fits⟩⟩
  | false =>
      rw [if_neg Bool.false_ne_true, if_neg Bool.false_ne_true, Option.some.injEq, Int.add_zero]
      exact ⟨fun same => ⟨same.symm, high⟩, fun both => both.1.symm⟩

theorem addCounts_eq_some_iff {keys : UsageKeys} {counts totals next : Totals}
    (counted : forall figure, 0 ≤ counts.figure figure) (nonneg : forall figure, 0 ≤ totals.figure figure) :
    addCounts keys totals counts = some next ↔ forall figure,
      next.figure figure = totals.figure figure + contribution keys counts figure ∧
        totals.figure figure + contribution keys counts figure ≤ maxTotal := by
  have cached : 0 ≤ folded keys counts := by
    have read : 0 ≤ counts.cacheRead := counted .cacheRead
    have write : 0 ≤ counts.cacheWrite := counted .cacheWrite
    rw [folded]
    split <;> omega
  have input : 0 ≤ totals.input + counts.input := Int.add_nonneg (nonneg .input) (counted .input)
  have assoc := Int.add_assoc totals.input counts.input (folded keys counts)
  rw [addCounts]
  constructor
  · intro added
    rcases Option.bind_eq_some_iff.mp added with ⟨plain, first, later⟩
    rcases Option.bind_eq_some_iff.mp later with ⟨total, second, later⟩
    rcases Option.bind_eq_some_iff.mp later with ⟨cacheWrite, third, later⟩
    rcases Option.bind_eq_some_iff.mp later with ⟨cacheRead, fourth, later⟩
    rcases Option.map_eq_some_iff.mp later with ⟨output, fifth, rfl⟩
    rcases (addI64_eq_some_iff (nonneg .input) (counted .input)).mp first with ⟨rfl, fits⟩
    intro figure
    cases figure with
    | input =>
        have sum := (folded_eq_some_iff (counted .cacheRead) (counted .cacheWrite) input fits).mp second
        rw [assoc] at sum
        exact sum
    | output => exact (addI64_eq_some_iff (nonneg .output) (counted .output)).mp fifth
    | cacheRead => exact (addI64_eq_some_iff (nonneg .cacheRead) (counted .cacheRead)).mp fourth
    | cacheWrite => exact (addI64_eq_some_iff (nonneg .cacheWrite) (counted .cacheWrite)).mp third
  · intro sums
    have total : next.input = totals.input + (counts.input + folded keys counts) ∧
        totals.input + (counts.input + folded keys counts) ≤ maxTotal := sums .input
    rw [← assoc] at total
    have fits : totals.input + counts.input ≤ maxTotal := by omega
    have plain : addI64 totals.input counts.input = some (totals.input + counts.input) :=
      (addI64_eq_some_iff (nonneg .input) (counted .input)).mpr ⟨rfl, fits⟩
    have cacheWrite : addI64 totals.cacheWrite counts.cacheWrite = some next.cacheWrite :=
      (addI64_eq_some_iff (nonneg .cacheWrite) (counted .cacheWrite)).mpr (sums .cacheWrite)
    have cacheRead : addI64 totals.cacheRead counts.cacheRead = some next.cacheRead :=
      (addI64_eq_some_iff (nonneg .cacheRead) (counted .cacheRead)).mpr (sums .cacheRead)
    have output : addI64 totals.output counts.output = some next.output :=
      (addI64_eq_some_iff (nonneg .output) (counted .output)).mpr (sums .output)
    rw [plain, Option.bind_some,
      (folded_eq_some_iff (counted .cacheRead) (counted .cacheWrite) input fits).mpr total, Option.bind_some,
      cacheWrite, Option.bind_some, cacheRead, Option.bind_some, output]
    rfl

theorem foldl_addUsage_none (keys : UsageKeys) (records : List JsonObject) :
    records.foldl (fun totals record => totals.bind fun totals => addUsage keys totals record) none = none := by
  induction records with
  | nil => rfl
  | cons record records ih => exact ih

theorem foldl_addUsage {keys : UsageKeys} {records : List JsonObject}
    (whole : forall record, record ∈ records -> keys.Whole record) {start : Totals}
    (nonneg : forall figure, 0 ≤ start.figure figure) (fits : forall figure, start.figure figure ≤ maxTotal)
    (totals : Totals) :
    records.foldl (fun totals record => totals.bind fun totals => addUsage keys totals record) (some start) =
        some totals ↔
      forall figure, totals.figure figure = start.figure figure + sumOf keys countOf figure records ∧
        start.figure figure + sumOf keys countOf figure records ≤ maxTotal := by
  induction records generalizing start with
  | nil =>
      constructor
      · intro same
        cases same
        exact fun figure => ⟨(Int.add_zero _).symm, (Int.add_zero _).symm ▸ fits figure⟩
      · intro sums
        exact congrArg some (Totals.ext_figure fun figure => (Int.add_zero _).symm.trans (sums figure).1.symm)
  | cons record records ih =>
      have first := whole record List.mem_cons_self
      have later := fun other member => whole other (List.mem_cons_of_mem _ member)
      have counted := fun figure => (reads_counts first figure).nonneg
      have added := fun figure => (reads_contribution first figure).nonneg
      have rest := fun figure => (reads_sumOf later figure).nonneg
      rw [List.foldl_cons, Option.bind_some]
      cases step : addUsage keys start record with
      | none =>
          rw [foldl_addUsage_none]
          refine ⟨fun none => absurd none.symm (Option.some_ne_none _), fun sums => ?_⟩
          have fitting : addUsage keys start record = some (Totals.ofFigures fun figure =>
              start.figure figure + contribution keys (countsBy (countOf record) keys) figure) := by
            refine (addCounts_eq_some_iff counted nonneg).mpr fun figure => ⟨Totals.figure_ofFigures _ _, ?_⟩
            have bounded := (sums figure).2
            have behind := rest figure
            rw [sumOf] at bounded
            omega
          exact absurd (fitting.symm.trans step) (Option.some_ne_none _)
      | some next =>
          have sums := (addCounts_eq_some_iff counted nonneg).mp step
          have nextNonneg : forall figure, 0 ≤ next.figure figure := by
            intro figure
            rw [(sums figure).1]
            exact Int.add_nonneg (nonneg figure) (added figure)
          rw [ih later nextNonneg fun figure => (sums figure).1 ▸ (sums figure).2]
          refine forall_congr' fun figure => ?_
          rw [sumOf, (sums figure).1, Int.add_assoc]

theorem addUsages_eq_some_iff {keys : UsageKeys} {records : List JsonObject}
    (whole : forall record, record ∈ records -> keys.Whole record) (totals : Totals) :
    addUsages keys records = some totals ↔ forall figure,
      totals.figure figure = sumOf keys countOf figure records ∧ sumOf keys countOf figure records ≤ maxTotal := by
  have zero : forall figure, Totals.figure ⟨0, 0, 0, 0⟩ figure = 0 := fun figure => by cases figure <;> rfl
  rw [addUsages, foldl_addUsage whole (fun figure => (zero figure).ge) fun figure => by rw [zero]; decide]
  refine forall_congr' fun figure => ?_
  rw [zero, Int.zero_add]

/-! ## The three formats -/

inductive ForeignFormat where
  | claudeCode
  | codex
  | pi

namespace ForeignFormat

def keys : ForeignFormat -> UsageKeys
  | .claudeCode => ClaudeCode.usageKeys
  | .codex => Codex.usageKeys
  | .pi => Pi.usageKeys

def convert (services : Services) (content : String) : ForeignFormat -> Except ImportError ImportedSession
  | .claudeCode => ClaudeCode.convert services content
  | .codex => Codex.convert services content
  | .pi => Pi.convert services content

/-- The values of the lines of a transcript, without the header that one of the formats has. -/
def lines (services : Services) (content : String) : ForeignFormat -> List Json
  | .pi => ((textLines content).filter isShown).tail.filterMap services.json.value?
  | _ => jsonLines services content

/-- The usage record of a line. -/
def usageRecord : ForeignFormat -> Json -> Option JsonObject
  | .claudeCode => ClaudeCode.usageRecord
  | .codex => Codex.usageRecord
  | .pi => Pi.usageRecord

/-- A line whose usage record is counted.  One of the formats counts only those that become a
message. -/
def counts (services : Services) : ForeignFormat -> Json -> Bool
  | .claudeCode => fun line => (ClaudeCode.convertAssistantMessage services line).isSome
  | _ => fun _ => true

variable (services : Services) (content : String) (format : ForeignFormat)

def usageRecords : List JsonObject :=
  (format.lines services content).filterMap format.usageRecord

def countedRecords : List JsonObject :=
  ((format.lines services content).filter (format.counts services)).filterMap format.usageRecord

def droppedRecords : List JsonObject :=
  ((format.lines services content).filter fun line => !format.counts services line).filterMap format.usageRecord

/-- A figure comes out right: nothing of a small sum is dropped, or the counted part of a large
one fits into 64 bits and ends in the bits of the largest figure. -/
def Narrows (figure : Figure) : Prop :=
  (sumOf format.keys exactCount figure (format.usageRecords services content) ≤ maxFigure ∧
      sumOf format.keys exactCount figure (format.droppedRecords services content) = 0) ∨
    (maxFigure < sumOf format.keys exactCount figure (format.usageRecords services content) ∧
      sumOf format.keys countOf figure (format.countedRecords services content) ≤ maxTotal ∧
        sumOf format.keys countOf figure (format.countedRecords services content) % 4294967296 = maxFigure)

variable {services content format}

theorem toI32_eq_min_iff {counted exact dropped : Int} (reads : Reads counted exact) (nonneg : 0 ≤ dropped) :
    (counted ≤ maxTotal ∧ toI32 counted = min (exact + dropped) maxFigure) ↔
      (exact + dropped ≤ maxFigure ∧ dropped = 0) ∨
        (maxFigure < exact + dropped ∧ counted ≤ maxTotal ∧ counted % 4294967296 = maxFigure) := by
  have low := reads.nonneg
  have high := reads.le
  have small := reads.small
  simp only [toI32, Int.bmod_def, maxFigure, maxTotal] at *
  omega

theorem positiveFigure_getD {total : Int} (nonneg : 0 ≤ total) : (positiveFigure total).getD 0 = toI32 total := by
  rw [positiveFigure]
  by_cases positive : total > 0
  · rw [if_pos positive, Option.getD_some]
  · rw [if_neg positive, Int.le_antisymm (Int.not_lt.mp positive) nonneg]
    rfl

theorem convert_eq (accepted : forall message, format.convert services content ≠ .error (.invalid message)) :
    Exists fun build => format.convert services content =
        withTotals build (addUsages format.keys (format.countedRecords services content)) ∧
      forall totals, (forall figure, 0 ≤ totals.figure figure) ->
        (format.keys.cacheWrite = none -> totals.cacheWrite = 0) ->
          forall figure, usageFigure (build totals).usage figure = toI32 (totals.figure figure) := by
  cases format with
  | claudeCode =>
      by_cases nothing : jsonLines services content = []
      · exact absurd (if_pos nothing) (accepted _)
      · refine ⟨ClaudeCode.session services (jsonLines services content), ?_, fun totals nonneg _ figure => ?_⟩
        · refine (if_neg nothing).trans (congrArg (withTotals _) (congrArg (addUsages _) ?_))
          exact (List.filterMap_filter ..).symm
        · cases figure with
          | input => rfl
          | output => rfl
          | cacheRead => exact positiveFigure_getD (nonneg .cacheRead)
          | cacheWrite => exact positiveFigure_getD (nonneg .cacheWrite)
  | codex =>
      by_cases nothing : jsonLines services content = []
      · exact absurd (if_pos nothing) (accepted _)
      · refine ⟨Codex.session services (jsonLines services content), ?_, fun totals nonneg unnamed figure => ?_⟩
        · refine (if_neg nothing).trans (congrArg (withTotals _) (congrArg (addUsages _) ?_))
          exact (congrArg (List.filterMap _) (List.filter_true _)).symm
        · cases figure with
          | input => exact positiveFigure_getD (nonneg .input)
          | output => exact positiveFigure_getD (nonneg .output)
          | cacheRead => exact positiveFigure_getD (nonneg .cacheRead)
          | cacheWrite =>
              rw [Totals.figure, unnamed rfl]
              rfl
  | pi =>
      have records : forall values : List Json,
          values.filterMap Pi.usageRecord = (values.filter fun _ => true).filterMap Pi.usageRecord :=
        fun values => (congrArg (List.filterMap _) (List.filter_true values)).symm
      rw [convert, Pi.convert] at accepted ⊢
      rw [countedRecords, lines]
      cases shown : (textLines content).filter isShown with
      | nil =>
          rw [shown] at accepted
          exact absurd rfl (accepted _)
      | cons first rest =>
          rw [shown] at accepted
          cases parsed : services.json.fromStr first with
          | error error =>
              simp only [parsed] at accepted
              exact absurd rfl (accepted _)
          | ok header =>
              simp only [parsed] at accepted ⊢
              by_cases other : textField header "type" ≠ some "session"
              · rw [if_pos other] at accepted
                exact absurd rfl (accepted _)
              · refine ⟨Pi.session services header (rest.filterMap services.json.value?), ?_,
                  fun totals nonneg _ figure => ?_⟩
                · rw [if_neg other, records]
                  rfl
                · cases figure with
                  | input => rfl
                  | output => rfl
                  | cacheRead => exact positiveFigure_getD (nonneg .cacheRead)
                  | cacheWrite => exact positiveFigure_getD (nonneg .cacheWrite)

/-- The figures of an imported session are the exact sums of its transcript, bounded by the
largest figure, exactly when each of them narrows. -/
theorem figures_exact_iff (services : Services) (content : String) (format : ForeignFormat)
    (accepted : forall message, format.convert services content ≠ .error (.invalid message))
    (whole : forall record, record ∈ format.usageRecords services content -> format.keys.Whole record) :
    (Exists fun imported => format.convert services content = .ok imported ∧
        forall figure, usageFigure imported.usage figure =
          min (sumOf format.keys exactCount figure (format.usageRecords services content)) maxFigure) ↔
      forall figure, format.Narrows services content figure := by
  have part : forall kind : Json -> Bool, forall record,
      record ∈ ((format.lines services content).filter kind).filterMap format.usageRecord ->
        format.keys.Whole record := by
    intro kind record member
    rcases List.mem_filterMap.mp member with ⟨line, kept, found⟩
    exact whole record (List.mem_filterMap.mpr ⟨line, (List.mem_filter.mp kept).1, found⟩)
  have countedWhole : forall record, record ∈ format.countedRecords services content -> format.keys.Whole record :=
    part _
  have counted := fun figure => reads_sumOf countedWhole figure
  have dropped := fun figure =>
    (reads_sumOf (part fun line => !format.counts services line) figure).nonneg.trans
      (reads_sumOf (part fun line => !format.counts services line) figure).le
  have split := fun figure => sumOf_filterMap format.keys exactCount figure format.usageRecord
    (format.counts services) (format.lines services content)
  have narrows := fun figure => toI32_eq_min_iff (counted figure) (dropped figure)
  rcases convert_eq accepted with ⟨build, converted, figures⟩
  have sums : forall figure, format.Narrows services content figure ↔
      sumOf format.keys countOf figure (format.countedRecords services content) ≤ maxTotal ∧
        toI32 (sumOf format.keys countOf figure (format.countedRecords services content)) =
          min (sumOf format.keys exactCount figure (format.usageRecords services content)) maxFigure := by
    intro figure
    rw [Narrows, usageRecords, split figure]
    exact (narrows figure).symm
  have built : forall totals,
      addUsages format.keys (format.countedRecords services content) = some totals ->
        forall figure, usageFigure (build totals).usage figure =
          toI32 (sumOf format.keys countOf figure (format.countedRecords services content)) := by
    intro totals added figure
    have same := (addUsages_eq_some_iff countedWhole totals).mp added
    rw [figures totals (fun figure => (same figure).1 ▸ (counted figure).nonneg)
      (fun unnamed => (same .cacheWrite).1.trans (sumOf_cacheWrite unnamed _ _)), (same figure).1]
  rw [converted]
  constructor
  · rintro ⟨imported, same, exact⟩ figure
    cases added : addUsages format.keys (format.countedRecords services content) with
    | none =>
        rw [added] at same
        contradiction
    | some totals =>
        rw [added] at same
        cases same
        refine (sums figure).mpr ⟨((addUsages_eq_some_iff countedWhole totals).mp added figure).2, ?_⟩
        rw [← built totals added figure, exact]
  · intro all
    have fitting := (addUsages_eq_some_iff countedWhole (Totals.ofFigures fun figure =>
      sumOf format.keys countOf figure (format.countedRecords services content))).mpr fun figure =>
        ⟨Totals.figure_ofFigures _ _, ((sums figure).mp (all figure)).1⟩
    refine ⟨build _, congrArg (withTotals build) fitting, fun figure => ?_⟩
    rw [built _ fitting, ((sums figure).mp (all figure)).2]

/-! ## One line of the assistant -/

/-- A usage record with input tokens only. -/
def sampleRecord (tokens : Nat) : JsonObject :=
  [("input_tokens", .number (.integer tokens))]

def sampleLine (tokens : Nat) : Json :=
  .object [("type", .string "assistant"), ("message", .object
    [("content", .array [.object [("type", .string "text"), ("text", .string "hi")]]),
      ("usage", .object (sampleRecord tokens))])]

/-- Services that know a transcript of one line. -/
def sampleServices (tokens : Nat) : Services where
  codec := .ascii
  json := .ofTable [("a", sampleLine tokens)] rfl
  render := fun _ => ""
  readOutputItem := fun _ => none
  parseTimestamp := fun _ => none
  now := 0
  currentDir := "/"

theorem sample_lines (tokens : Nat) : jsonLines (sampleServices tokens) "a" = [sampleLine tokens] := rfl

theorem sample_records (tokens : Nat) : claudeCode.usageRecords (sampleServices tokens) "a" = [sampleRecord tokens] :=
  rfl

theorem sample_whole (tokens : Nat) (record : JsonObject)
    (member : record ∈ claudeCode.usageRecords (sampleServices tokens) "a") : claudeCode.keys.Whole record := by
  rw [sample_records, List.mem_singleton] at member
  intro key number _ found
  rw [member, sampleRecord, List.lookup_cons] at found
  split at found
  · exact ⟨tokens, (Json.number.inj (Option.some.inj found)).symm⟩
  · contradiction

theorem sample_accepted (tokens : Nat) (message : String) :
    claudeCode.convert (sampleServices tokens) "a" ≠ .error (.invalid message) := by
  have nonempty : jsonLines (sampleServices tokens) "a" ≠ [] := by
    rw [sample_lines]
    exact List.cons_ne_nil _ _
  rw [convert, ClaudeCode.convert, if_neg nonempty]
  cases addUsages ClaudeCode.usageKeys _ <;> simp [withTotals]

/-- Two to the 31 tokens become a negative figure. -/
theorem figures_wrap : ¬ forall (services : Services) (content : String) (format : ForeignFormat),
    (forall message, format.convert services content ≠ .error (.invalid message)) ->
      (forall record, record ∈ format.usageRecords services content -> format.keys.Whole record) ->
        Exists fun imported => format.convert services content = .ok imported ∧
          forall figure, usageFigure imported.usage figure =
            min (sumOf format.keys exactCount figure (format.usageRecords services content)) maxFigure := by
  intro all
  rcases all (sampleServices 2147483648) "a" .claudeCode (sample_accepted _) (sample_whole _) with
    ⟨imported, converted, exact⟩
  have wrapped : (claudeCode.convert (sampleServices 2147483648) "a").toOption.map
      (fun imported => usageFigure imported.usage .input) = some (-2147483648) := by
    decide +kernel
  rw [converted] at wrapped
  have same : usageFigure imported.usage .input = -2147483648 := Option.some.inj wrapped
  rw [exact, sample_records] at same
  exact absurd same (by decide)

theorem figures_exact_sample : (Exists fun imported =>
      claudeCode.convert (sampleServices 5) "a" = .ok imported ∧ forall figure, usageFigure imported.usage figure =
        min (sumOf claudeCode.keys exactCount figure (claudeCode.usageRecords (sampleServices 5) "a")) maxFigure) ↔
    forall figure, claudeCode.Narrows (sampleServices 5) "a" figure :=
  figures_exact_iff (sampleServices 5) "a" .claudeCode (sample_accepted 5) (sample_whole 5)

end ForeignFormat

end ImportFormats
end AIBuddy
