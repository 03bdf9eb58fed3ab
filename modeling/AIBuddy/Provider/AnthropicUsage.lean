import Mathlib.Algebra.Group.Int.Defs
import Mathlib.Algebra.Ring.Int.Defs
import Mathlib.Data.List.Basic
import AIBuddy.Provider.MessageStream
import AIBuddy.Provider.ToolArguments

namespace AIBuddy

/-!
# The usage of an Anthropic stream

A stream reports its token counts at its start, and again, as they grow, in deltas that may leave
fields out.  The input of a usage includes the cached tokens, while the input field of a payload
does not.
-/

/-! ## Usages from payloads -/

/-- A number as an unsigned word of 64 bits. -/
def Json.asU64 : Json -> Option Nat
  | .number (.integer value) => if 0 ≤ value ∧ value < 2 ^ 64 then some value.toNat else none
  | _ => none

namespace Usage

/-- A usage whose input and total are reported without the cached tokens. -/
def fromCacheExclusiveInput (inputTokens outputTokens totalTokens read write : Option Int) : Usage :=
  let cacheTokens := saturate (read.getD 0 + write.getD 0)
  (Usage.new (inputTokens.map fun count => saturate (count + cacheTokens)) outputTokens
    (totalTokens.map fun count => saturate (count + cacheTokens))).withCacheTokens read write

end Usage

/-- A field of a payload, cut to a count. -/
def usageField (usage : Json) (key : String) : Option Int :=
  ((usage.get key).bind Json.asU64).map fun count : Nat => min (count : Int) 2147483647

def usageFromAnthropicFields (usage : Json) : Usage :=
  .fromCacheExclusiveInput (some ((usageField usage "input_tokens").getD 0))
    (some ((usageField usage "output_tokens").getD 0)) none (usageField usage "cache_read_input_tokens")
    (usageField usage "cache_creation_input_tokens")

/-- Merge the usage of a delta into the one so far. -/
def mergeDeltaUsage (existing delta : Usage) (deltaData : Json) : Usage :=
  let reports := fun key => (deltaData.get key).isSome
  let output := if reports "output_tokens" then delta.outputTokens else existing.outputTokens
  if !reports "input_tokens" then
    (Usage.new existing.inputTokens output none).withCacheTokens existing.cacheReadInputTokens
      existing.cacheWriteInputTokens
  else if reports "cache_read_input_tokens" || reports "cache_creation_input_tokens" then
    (Usage.new delta.inputTokens output none).withCacheTokens delta.cacheReadInputTokens delta.cacheWriteInputTokens
  else
    .fromCacheExclusiveInput delta.inputTokens output none existing.cacheReadInputTokens existing.cacheWriteInputTokens

/-- The usage that some data reports.  A payload whose numbers add up to nothing reports none. -/
def getUsage (data : Json) : Usage :=
  match data.get "usage" with
  | some usage => usageFromAnthropicFields usage
  | none =>
      if data.isObject then
        let usage := usageFromAnthropicFields data
        if usage.totalTokens.getD 0 > 0 then usage else .new none none none
      else .new none none none

/-- The usage of a stream after its start and its deltas. -/
def streamUsage (messageStart : Json) (messageDeltas : List Json) : Usage :=
  messageDeltas.foldl (fun existing delta => mergeDeltaUsage existing (getUsage delta) delta) (getUsage messageStart)

/-! ## Payloads -/

def countKeys : List String :=
  ["input_tokens", "output_tokens", "cache_read_input_tokens", "cache_creation_input_tokens"]

/-- The usage of an event: an object whose counts are unsigned words wherever they are reported. -/
structure UsagePayload where
  data : Json
  isObject : data.isObject = true
  direct : data.get "usage" = none
  counts : forall key, key ∈ countKeys -> ((data.get key).all fun value => value.asU64.isSome) = true

namespace UsagePayload

/-- The count that a payload reports in a field. -/
def count (payload : UsagePayload) (key : String) : Option Int :=
  usageField payload.data key

/-- Nothing but zeros is reported. -/
def Blank (payload : UsagePayload) : Prop :=
  forall key, key ∈ countKeys -> (payload.count key).getD 0 = 0

instance (payload : UsagePayload) : Decidable payload.Blank :=
  inferInstanceAs (Decidable (forall key, key ∈ countKeys -> _))

theorem count_bounds (payload : UsagePayload) (key : String) :
    0 ≤ (payload.count key).getD 0 ∧ (payload.count key).getD 0 ≤ 2147483647 := by
  unfold count usageField
  cases ((payload.data.get key).bind Json.asU64) with
  | none => exact ⟨Int.le_refl 0, by decide⟩
  | some value =>
      rw [Option.map_some, Option.getD_some]
      omega

/-- A field is reported where there is one. -/
theorem isSome_get (payload : UsagePayload) {key : String} (known : key ∈ countKeys) :
    (payload.data.get key).isSome = (payload.count key).isSome := by
  unfold count usageField
  have counts := payload.counts key known
  cases found : payload.data.get key with
  | none => rfl
  | some value =>
      rw [found, Option.all_some] at counts
      rw [Option.bind_some, Option.isSome_map, counts]
      rfl

/-- What a payload leaves in a field of the usage. -/
def usageCount (payload : UsagePayload) (key : String) : Option Int :=
  if payload.Blank then none else payload.count key

end UsagePayload

theorem saturate_of_nonneg {value : Int} (positive : 0 ≤ value) : saturate value = min 2147483647 value := by
  unfold saturate
  omega

/-- An input with the cached tokens. -/
def inclusiveInput (input : Int) (read write : Option Int) : Int :=
  min 2147483647 (input + read.getD 0 + write.getD 0)

theorem saturate_inclusive {input : Int} {read write : Option Int} (positive : 0 ≤ input) (positiveRead : 0 ≤ read.getD 0)
    (positiveWrite : 0 ≤ write.getD 0) :
    saturate (input + saturate (read.getD 0 + write.getD 0)) = inclusiveInput input read write := by
  have cached : saturate (read.getD 0 + write.getD 0) = min 2147483647 (read.getD 0 + write.getD 0) :=
    saturate_of_nonneg (by omega)
  rw [cached, saturate_of_nonneg (by omega), inclusiveInput]
  omega

namespace UsagePayload

theorem getUsage_data (payload : UsagePayload) :
    (getUsage payload.data).cacheReadInputTokens = payload.usageCount "cache_read_input_tokens" ∧
      (getUsage payload.data).cacheWriteInputTokens = payload.usageCount "cache_creation_input_tokens" ∧
      (getUsage payload.data).outputTokens =
        (if payload.Blank then none else some ((payload.count "output_tokens").getD 0)) ∧
      (getUsage payload.data).inputTokens =
        if payload.Blank then none
        else some (inclusiveInput ((payload.count "input_tokens").getD 0) (payload.count "cache_read_input_tokens")
          (payload.count "cache_creation_input_tokens")) := by
  have input := payload.count_bounds "input_tokens"
  have output := payload.count_bounds "output_tokens"
  have read := payload.count_bounds "cache_read_input_tokens"
  have write := payload.count_bounds "cache_creation_input_tokens"
  have joined := saturate_inclusive input.1 read.1 write.1
  have total : (usageFromAnthropicFields payload.data).totalTokens.getD 0 =
      min 2147483647 (inclusiveInput ((payload.count "input_tokens").getD 0) (payload.count "cache_read_input_tokens")
        (payload.count "cache_creation_input_tokens") + (payload.count "output_tokens").getD 0) := by
    rw [← saturate_of_nonneg (by unfold inclusiveInput; omega), ← joined]
    rfl
  have blank : ¬(usageFromAnthropicFields payload.data).totalTokens.getD 0 > 0 ↔ payload.Blank := by
    rw [total, inclusiveInput]
    simp only [Blank, countKeys, List.forall_mem_cons, List.not_mem_nil, false_implies, implies_true, and_true]
    omega
  simp only [getUsage, payload.direct, payload.isObject, if_true, usageCount]
  by_cases empty : payload.Blank
  · rw [if_neg (blank.mpr empty)]
    simp only [if_pos empty]
    exact ⟨rfl, rfl, rfl, rfl⟩
  · rw [if_pos (Classical.not_not.mp fun none_ => empty (blank.mp none_))]
    simp only [if_neg empty]
    refine ⟨rfl, rfl, rfl, ?_⟩
    rw [← joined]
    rfl

end UsagePayload

/-! ## The last reported counts -/

/-- The payload that reports a field last. -/
def lastReporting (payloads : List UsagePayload) (key : String) : Option UsagePayload :=
  payloads.reverse.find? fun payload => (payload.count key).isSome

def lastReported (payloads : List UsagePayload) (key : String) : Option Int :=
  (lastReporting payloads key).bind fun payload => payload.count key

/-- A delta reports its input together with cached tokens. -/
def UsagePayload.ReportsCachedInput (delta : UsagePayload) : Prop :=
  (delta.count "input_tokens").isSome = true ∧
    ((delta.count "cache_read_input_tokens").isSome = true ∨ (delta.count "cache_creation_input_tokens").isSome = true)

instance (delta : UsagePayload) : Decidable delta.ReportsCachedInput :=
  inferInstanceAs (Decidable (_ ∧ _))

/-- The last delta that reports its input together with cached tokens, or the start. -/
def cacheCarrier (messageStart : UsagePayload) (messageDeltas : List UsagePayload) : UsagePayload :=
  (messageDeltas.reverse.find? fun delta => decide delta.ReportsCachedInput).getD messageStart

/-- What is promised of the usage of a stream. -/
structure CountsLastReported (payloads : List UsagePayload) (usage : Usage) : Prop where
  read : usage.cacheReadInputTokens = lastReported payloads "cache_read_input_tokens"
  write : usage.cacheWriteInputTokens = lastReported payloads "cache_creation_input_tokens"
  output : forall count, lastReported payloads "output_tokens" = some count -> usage.outputTokens = some count
  input : forall count, lastReported payloads "input_tokens" = some count ->
    usage.inputTokens = some (inclusiveInput count (lastReported payloads "cache_read_input_tokens")
      (lastReported payloads "cache_creation_input_tokens"))

theorem lastReporting_concat (payloads : List UsagePayload) (last : UsagePayload) (key : String) :
    lastReporting (payloads ++ [last]) key =
      if (last.count key).isSome then some last else lastReporting payloads key := by
  rw [lastReporting, List.reverse_append, List.reverse_singleton, List.singleton_append, List.find?_cons]
  split <;> simp_all [lastReporting]

theorem cacheCarrier_concat (messageStart : UsagePayload) (messageDeltas : List UsagePayload) (last : UsagePayload) :
    cacheCarrier messageStart (messageDeltas ++ [last]) =
      if last.ReportsCachedInput then last else cacheCarrier messageStart messageDeltas := by
  rw [cacheCarrier, List.reverse_append, List.reverse_singleton, List.singleton_append, List.find?_cons]
  split <;> simp_all [cacheCarrier]

/-- How the usage of a stream comes from its payloads: the output and the input from the ones that
report them last, the cached tokens from the carrier. -/
structure Merged (messageStart : UsagePayload) (messageDeltas : List UsagePayload) (usage : Usage) : Prop where
  read : usage.cacheReadInputTokens =
    (cacheCarrier messageStart messageDeltas).usageCount "cache_read_input_tokens"
  write : usage.cacheWriteInputTokens =
    (cacheCarrier messageStart messageDeltas).usageCount "cache_creation_input_tokens"
  output : forall payload, lastReporting (messageStart :: messageDeltas) "output_tokens" = some payload ->
    usage.outputTokens = if payload.Blank then none else some ((payload.count "output_tokens").getD 0)
  input : forall payload, lastReporting (messageStart :: messageDeltas) "input_tokens" = some payload ->
    usage.inputTokens = if payload.Blank then none
      else some (inclusiveInput ((payload.count "input_tokens").getD 0) usage.cacheReadInputTokens
        usage.cacheWriteInputTokens)

theorem merged_start (messageStart : UsagePayload) : Merged messageStart [] (getUsage messageStart.data) := by
  rcases messageStart.getUsage_data with ⟨read, write, output, input⟩
  have last : forall key payload, lastReporting [messageStart] key = some payload -> payload = messageStart := by
    intro key payload found
    exact List.mem_singleton.mp (List.mem_reverse.mp (List.mem_of_find?_eq_some found))
  refine ⟨read, write, fun payload found => ?_, fun payload found => ?_⟩
  · rw [last _ payload found]
    exact output
  · rw [last _ payload found, input]
    split
    · rfl
    · rename_i filled
      rw [read, write, UsagePayload.usageCount, UsagePayload.usageCount, if_neg filled, if_neg filled]

theorem outputTokens_mergeDeltaUsage (existing delta : Usage) (deltaData : Json) :
    (mergeDeltaUsage existing delta deltaData).outputTokens =
      if (deltaData.get "output_tokens").isSome then delta.outputTokens else existing.outputTokens := by
  unfold mergeDeltaUsage
  simp only
  split
  · rfl
  · split <;> rfl

theorem cacheCarrier_keeps (messageStart : UsagePayload) (messageDeltas : List UsagePayload) {delta : UsagePayload}
    (without : ¬delta.ReportsCachedInput) :
    cacheCarrier messageStart (messageDeltas ++ [delta]) = cacheCarrier messageStart messageDeltas := by
  rw [cacheCarrier_concat, if_neg without]

theorem mergeDeltaUsage_without (existing delta : Usage) {deltaData : Json}
    (absent : (deltaData.get "input_tokens").isSome = false) :
    (mergeDeltaUsage existing delta deltaData).inputTokens = existing.inputTokens ∧
      (mergeDeltaUsage existing delta deltaData).cacheReadInputTokens = existing.cacheReadInputTokens ∧
      (mergeDeltaUsage existing delta deltaData).cacheWriteInputTokens = existing.cacheWriteInputTokens := by
  unfold mergeDeltaUsage
  simp only [absent]
  exact ⟨rfl, rfl, rfl⟩

theorem mergeDeltaUsage_cached (existing delta : Usage) {deltaData : Json}
    (input : (deltaData.get "input_tokens").isSome = true)
    (cached : ((deltaData.get "cache_read_input_tokens").isSome ||
      (deltaData.get "cache_creation_input_tokens").isSome) = true) :
    (mergeDeltaUsage existing delta deltaData).inputTokens = delta.inputTokens ∧
      (mergeDeltaUsage existing delta deltaData).cacheReadInputTokens = delta.cacheReadInputTokens ∧
      (mergeDeltaUsage existing delta deltaData).cacheWriteInputTokens = delta.cacheWriteInputTokens := by
  unfold mergeDeltaUsage
  simp only [input, cached]
  exact ⟨rfl, rfl, rfl⟩

theorem mergeDeltaUsage_input (existing delta : Usage) {deltaData : Json}
    (input : (deltaData.get "input_tokens").isSome = true)
    (cached : ((deltaData.get "cache_read_input_tokens").isSome ||
      (deltaData.get "cache_creation_input_tokens").isSome) = false) :
    (mergeDeltaUsage existing delta deltaData).inputTokens = (delta.inputTokens.map fun count =>
        saturate (count + saturate (existing.cacheReadInputTokens.getD 0 + existing.cacheWriteInputTokens.getD 0))) ∧
      (mergeDeltaUsage existing delta deltaData).cacheReadInputTokens = existing.cacheReadInputTokens ∧
      (mergeDeltaUsage existing delta deltaData).cacheWriteInputTokens = existing.cacheWriteInputTokens := by
  unfold mergeDeltaUsage
  simp only [input, cached]
  exact ⟨rfl, rfl, rfl⟩

theorem UsagePayload.usageCount_nonneg (payload : UsagePayload) (key : String) :
    0 ≤ (payload.usageCount key).getD 0 := by
  unfold usageCount
  split
  · exact Int.le_refl 0
  · exact (payload.count_bounds key).1

theorem merged_delta {messageStart : UsagePayload} {messageDeltas : List UsagePayload} {usage : Usage}
    (merged : Merged messageStart messageDeltas usage) (delta : UsagePayload) :
    Merged messageStart (messageDeltas ++ [delta]) (mergeDeltaUsage usage (getUsage delta.data) delta.data) := by
  rcases delta.getUsage_data with ⟨read, write, output, input⟩
  have outputs : forall payload,
      lastReporting (messageStart :: (messageDeltas ++ [delta])) "output_tokens" = some payload ->
        (mergeDeltaUsage usage (getUsage delta.data) delta.data).outputTokens =
          if payload.Blank then none else some ((payload.count "output_tokens").getD 0) := by
    intro payload found
    rw [← List.cons_append, lastReporting_concat] at found
    rw [outputTokens_mergeDeltaUsage, delta.isSome_get (by decide)]
    split at found
    · rename_i reported
      cases found
      rw [if_pos reported, output]
    · rename_i unreported
      rw [if_neg unreported]
      exact merged.output payload found
  by_cases reported : (delta.count "input_tokens").isSome = true
  · have present : (delta.data.get "input_tokens").isSome = true := by rw [delta.isSome_get (by decide), reported]
    have latest : lastReporting (messageStart :: (messageDeltas ++ [delta])) "input_tokens" = some delta := by
      rw [← List.cons_append, lastReporting_concat, if_pos reported]
    by_cases carries : delta.ReportsCachedInput
    · have cached : ((delta.data.get "cache_read_input_tokens").isSome ||
          (delta.data.get "cache_creation_input_tokens").isSome) = true := by
        rw [delta.isSome_get (by decide), delta.isSome_get (by decide), Bool.or_eq_true]
        exact carries.2
      rcases mergeDeltaUsage_cached usage (getUsage delta.data) present cached with
        ⟨sameInput, sameRead, sameWrite⟩
      have carrier : cacheCarrier messageStart (messageDeltas ++ [delta]) = delta := by
        rw [cacheCarrier_concat, if_pos carries]
      refine ⟨by rw [sameRead, read, carrier], by rw [sameWrite, write, carrier], outputs, ?_⟩
      intro payload found
      rw [latest] at found
      cases found
      rw [sameInput, sameRead, sameWrite, read, write, input]
      split
      · rfl
      · rename_i filled
        rw [UsagePayload.usageCount, UsagePayload.usageCount, if_neg filled, if_neg filled]
    · have uncached : ((delta.data.get "cache_read_input_tokens").isSome ||
          (delta.data.get "cache_creation_input_tokens").isSome) = false := by
        rw [delta.isSome_get (by decide), delta.isSome_get (by decide), Bool.or_eq_false_iff]
        rw [UsagePayload.ReportsCachedInput, not_and_or, not_or] at carries
        have none_cached := carries.resolve_left fun absent => absent reported
        exact ⟨Bool.eq_false_iff.mpr none_cached.1, Bool.eq_false_iff.mpr none_cached.2⟩
      rcases mergeDeltaUsage_input usage (getUsage delta.data) present uncached with
        ⟨sameInput, sameRead, sameWrite⟩
      have carrier := cacheCarrier_keeps messageStart messageDeltas carries
      refine ⟨by rw [sameRead, merged.read, carrier], by rw [sameWrite, merged.write, carrier], outputs, ?_⟩
      intro payload found
      rw [latest] at found
      cases found
      have positiveRead : 0 ≤ usage.cacheReadInputTokens.getD 0 := by
        rw [merged.read]
        exact UsagePayload.usageCount_nonneg ..
      have positiveWrite : 0 ≤ usage.cacheWriteInputTokens.getD 0 := by
        rw [merged.write]
        exact UsagePayload.usageCount_nonneg ..
      have bounds := delta.count_bounds "input_tokens"
      rw [delta.isSome_get (by decide), delta.isSome_get (by decide), Bool.or_eq_false_iff, Option.isSome_eq_false_iff,
        Option.isNone_iff_eq_none, Option.isSome_eq_false_iff, Option.isNone_iff_eq_none] at uncached
      rw [sameInput, sameRead, sameWrite, input, uncached.1, uncached.2]
      split
      · rfl
      · have alone : inclusiveInput ((delta.count "input_tokens").getD 0) none none =
            (delta.count "input_tokens").getD 0 := by
          rw [inclusiveInput, Option.getD_none]
          omega
        rw [alone, Option.map_some, saturate_inclusive bounds.1 positiveRead positiveWrite]
  · have absent : (delta.data.get "input_tokens").isSome = false := by
      rw [delta.isSome_get (by decide), Bool.eq_false_iff]
      exact reported
    rcases mergeDeltaUsage_without usage (getUsage delta.data) absent with
      ⟨sameInput, sameRead, sameWrite⟩
    have carrier := cacheCarrier_keeps messageStart messageDeltas (fun carries => reported carries.1)
    refine ⟨by rw [sameRead, merged.read, carrier], by rw [sameWrite, merged.write, carrier], outputs, ?_⟩
    intro payload found
    rw [← List.cons_append, lastReporting_concat, if_neg reported] at found
    rw [sameInput, sameRead, sameWrite]
    exact merged.input payload found

theorem merged_streamUsage (messageStart : UsagePayload) (messageDeltas : List UsagePayload) :
    Merged messageStart messageDeltas (streamUsage messageStart.data (messageDeltas.map UsagePayload.data)) := by
  induction messageDeltas using List.reverseRecOn with
  | nil => exact merged_start messageStart
  | append_singleton earlier delta ih =>
      rw [streamUsage, List.map_append, List.map_singleton, List.foldl_append]
      exact merged_delta ih delta

/-- The last payloads with an output and with an input report more than zeros, and the last one that
reports its input together with cached tokens, or the start, has the last reported cached tokens. -/
def Attributed (messageStart : UsagePayload) (messageDeltas : List UsagePayload) : Prop :=
  (forall payload, lastReporting (messageStart :: messageDeltas) "output_tokens" = some payload -> ¬payload.Blank) ∧
    (forall payload, lastReporting (messageStart :: messageDeltas) "input_tokens" = some payload -> ¬payload.Blank) ∧
    (cacheCarrier messageStart messageDeltas).usageCount "cache_read_input_tokens" =
      lastReported (messageStart :: messageDeltas) "cache_read_input_tokens" ∧
    (cacheCarrier messageStart messageDeltas).usageCount "cache_creation_input_tokens" =
      lastReported (messageStart :: messageDeltas) "cache_creation_input_tokens"

theorem lastReported_of_lastReporting {payloads : List UsagePayload} {key : String} {payload : UsagePayload}
    (found : lastReporting payloads key = some payload) :
    lastReported payloads key = some ((payload.count key).getD 0) := by
  have reports : (payload.count key).isSome = true := (List.find?_eq_some_iff_append.mp found).1
  rcases Option.isSome_iff_exists.mp reports with ⟨count, same⟩
  rw [lastReported, found, Option.bind_some, same]
  rfl

/-- The usage of a stream has the last reported counts exactly where they are attributed. -/
theorem streamUsage_counts_iff (messageStart : UsagePayload) (messageDeltas : List UsagePayload) :
    CountsLastReported (messageStart :: messageDeltas)
        (streamUsage messageStart.data (messageDeltas.map UsagePayload.data)) ↔
      Attributed messageStart messageDeltas := by
  have merged := merged_streamUsage messageStart messageDeltas
  constructor
  · intro counts
    refine ⟨?_, ?_, merged.read.symm.trans counts.read, merged.write.symm.trans counts.write⟩
    · intro payload found blank
      have reported := counts.output _ (lastReported_of_lastReporting found)
      rw [merged.output payload found, if_pos blank] at reported
      cases reported
    · intro payload found blank
      have reported := counts.input _ (lastReported_of_lastReporting found)
      rw [merged.input payload found, if_pos blank] at reported
      cases reported
  · rintro ⟨output, input, read, write⟩
    have sameRead := merged.read.trans read
    have sameWrite := merged.write.trans write
    refine ⟨sameRead, sameWrite, ?_, ?_⟩
    · intro count reported
      rcases Option.bind_eq_some_iff.mp reported with ⟨payload, found, same⟩
      rw [merged.output payload found, if_neg (output payload found), same]
      rfl
    · intro count reported
      rcases Option.bind_eq_some_iff.mp reported with ⟨payload, found, same⟩
      rw [merged.input payload found, if_neg (input payload found), same, sameRead, sameWrite]
      rfl

def exampleStart : UsagePayload where
  data := .object [("input_tokens", .number (.integer 8)), ("output_tokens", .number (.integer 3)),
    ("cache_read_input_tokens", .number (.integer 100)), ("cache_creation_input_tokens", .number (.integer 0))]
  isObject := rfl
  direct := by decide +kernel
  counts := by decide +kernel

def exampleDelta : UsagePayload where
  data := .object [("output_tokens", .number (.integer 510)), ("cache_read_input_tokens", .number (.integer 200))]
  isObject := rfl
  direct := by decide +kernel
  counts := by decide +kernel

/-- Cached tokens that a delta reports without its input are lost. -/
theorem streamUsage_loses_cached :
    ¬CountsLastReported [exampleStart, exampleDelta] (streamUsage exampleStart.data [exampleDelta.data]) := by
  intro counts
  have read := counts.read
  revert read
  decide +kernel

end AIBuddy
