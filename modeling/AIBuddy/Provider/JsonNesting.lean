import Mathlib.Data.List.Basic
import AIBuddy.Provider.ToolArguments
import AIBuddy.Support.JsonText

namespace AIBuddy

open JsonText

/-!
# Nesting in JSON texts

The scan for truncation follows the quotes and brackets of a text.  A text of a JSON value
closes all that it opens, so a text that ends inside of an object is found truncated
whatever stands in front of the object, unless that leaves a string open.
-/

/-! ## Nesting -/

namespace JsonNesting

/-- One character, unless it is a closing bracket that matches nothing. -/
def step? (nesting : JsonNesting) (character : Char) : Option JsonNesting :=
  if nesting.inString then some (nesting.stepString character)
  else if isCloser character then
    if nesting.closers.head? = some character then some { nesting with closers := nesting.closers.tail } else none
  else some (nesting.stepOpen character)

/-- The nesting behind a text, unless a closing bracket matches nothing. -/
def after? (nesting : JsonNesting) (text : List Char) : Option JsonNesting :=
  text.foldlM step? nesting

/-- The same nesting inside of further brackets. -/
def within (nesting : JsonNesting) (outer : List Char) : JsonNesting :=
  { nesting with closers := nesting.closers ++ outer }

def isOpen (nesting : JsonNesting) : Bool :=
  nesting.inString || nesting.escapeNext || !nesting.closers.isEmpty

variable {nesting next : JsonNesting} {character : Char} {text : List Char}

theorem after?_append (nesting : JsonNesting) (left right : List Char) :
    nesting.after? (left ++ right) = (nesting.after? left).bind fun next => next.after? right :=
  List.foldlM_append

theorem after?_cons (nesting : JsonNesting) (character : Char) (rest : List Char) :
    nesting.after? (character :: rest) = (nesting.step? character).bind fun next => next.after? rest :=
  List.foldlM_cons

theorem looksTruncatedFrom_eq (nesting : JsonNesting) (text : List Char) :
    looksTruncatedFrom nesting text = ((nesting.after? text).map isOpen).getD true := by
  induction text generalizing nesting with
  | nil => rfl
  | cons character rest ih =>
      rw [looksTruncatedFrom, after?_cons, step?]
      split
      · exact ih _
      · split
        · split
          · exact ih _
          · rfl
        · exact ih _

/-- A text without superfluous closing brackets is scanned as when they are passed over. -/
theorem repairNesting_of_after? (read : nesting.after? text = some next) : repairNesting nesting text = next := by
  induction text generalizing nesting with
  | nil => exact Option.some.inj read
  | cons character rest ih =>
      rw [after?_cons, step?] at read
      rw [repairNesting]
      split at read
      · rename_i inString
        rw [if_pos inString]
        exact ih read
      · rename_i outside
        rw [if_neg outside]
        split at read
        · rename_i closer
          rw [if_pos closer]
          split at read
          · rename_i closes
            rw [if_pos closes]
            exact ih read
          · cases read
        · rename_i noCloser
          rw [if_neg noCloser]
          exact ih read

theorem stepString_within (nesting : JsonNesting) (character : Char) (outer : List Char) :
    (nesting.within outer).stepString character = (nesting.stepString character).within outer := by
  unfold stepString
  rw [apply_ite (fun other => within other outer), apply_ite (fun other => within other outer),
    apply_ite (fun other => within other outer)]
  rfl

theorem stepOpen_within (nesting : JsonNesting) (character : Char) (outer : List Char) :
    (nesting.within outer).stepOpen character = (nesting.stepOpen character).within outer := by
  unfold stepOpen
  rw [apply_ite (fun other => within other outer), apply_ite (fun other => within other outer),
    apply_ite (fun other => within other outer)]
  rfl

theorem repairNesting_append (nesting : JsonNesting) (left right : List Char) :
    repairNesting nesting (left ++ right) = repairNesting (repairNesting nesting left) right := by
  induction left generalizing nesting with
  | nil => rfl
  | cons character rest ih =>
      rw [List.cons_append, repairNesting, repairNesting]
      split_ifs
      · exact ih _
      · exact ih _
      · exact ih _
      · exact ih _

/-- Further brackets around a text do not matter to the text. -/
theorem step?_within (read : nesting.step? character = some next) (outer : List Char) :
    (nesting.within outer).step? character = some (next.within outer) := by
  unfold step? at read ⊢
  by_cases inString : nesting.inString = true
  · rw [if_pos inString] at read
    rw [← Option.some.inj read, if_pos (by exact inString), stepString_within]
  · rw [if_neg inString] at read
    rw [if_neg (by exact inString)]
    by_cases closer : isCloser character = true
    · rw [if_pos closer] at read ⊢
      rcases nesting with ⟨_, _, _ | ⟨top, rest⟩⟩
      · cases read
      · rw [List.head?_cons] at read
        rw [within, List.cons_append, List.head?_cons]
        split at read
        · rename_i closes
          rw [if_pos closes, ← Option.some.inj read]
          rfl
        · cases read
    · rw [if_neg closer] at read ⊢
      rw [← Option.some.inj read, stepOpen_within]

theorem after?_within (read : nesting.after? text = some next) (outer : List Char) :
    (nesting.within outer).after? text = some (next.within outer) := by
  induction text generalizing nesting with
  | nil =>
      rw [← Option.some.inj read]
      rfl
  | cons character rest ih =>
      rw [after?_cons] at read ⊢
      rcases Option.bind_eq_some_iff.mp read with ⟨middle, first, others⟩
      rw [step?_within first, Option.bind_some]
      exact ih others

/-- A backslash only counts inside of a string. -/
def Settled (nesting : JsonNesting) : Prop :=
  nesting.inString = false -> nesting.escapeNext = false

theorem Settled.stepString (inString : nesting.inString = true) : (nesting.stepString character).Settled := by
  unfold JsonNesting.stepString
  split_ifs with escaped backslash quote
  · exact fun _ => rfl
  · exact fun outside => absurd (inString.symm.trans outside) Bool.noConfusion
  · exact fun _ => Bool.eq_false_iff.mpr escaped
  · exact fun outside => absurd (inString.symm.trans outside) Bool.noConfusion

theorem Settled.stepOpen (plain : nesting.escapeNext = false) : (nesting.stepOpen character).Settled := by
  unfold JsonNesting.stepOpen
  split_ifs
  · exact fun _ => plain
  · exact fun _ => plain
  · exact fun _ => plain
  · exact fun _ => plain

theorem Settled.step? (settled : nesting.Settled) (read : nesting.step? character = some next) : next.Settled := by
  unfold JsonNesting.step? at read
  split at read
  · rename_i inString
    rw [← Option.some.inj read]
    exact Settled.stepString inString
  · rename_i outside
    have plain := settled (Bool.eq_false_iff.mpr outside)
    split at read
    · split at read
      · rw [← Option.some.inj read]
        exact fun _ => plain
      · cases read
    · rw [← Option.some.inj read]
      exact Settled.stepOpen plain

theorem Settled.after? (settled : nesting.Settled) (read : nesting.after? text = some next) : next.Settled := by
  induction text generalizing nesting with
  | nil =>
      rw [← Option.some.inj read]
      exact settled
  | cons character rest ih =>
      rw [after?_cons] at read
      rcases Option.bind_eq_some_iff.mp read with ⟨middle, first, others⟩
      exact ih (settled.step? first) others

/-! ## Balanced texts -/

/-- A character that opens and closes nothing. -/
def Plain (character : Char) : Prop :=
  character ≠ '\x22' ∧ character ≠ '\x7b' ∧ character ≠ '[' ∧ isCloser character = false

instance (character : Char) : Decidable (Plain character) :=
  inferInstanceAs (Decidable (_ ∧ _ ∧ _ ∧ _))

theorem after?_plain {front : List Char} (plain : forall character, character ∈ front -> Plain character)
    (outside : nesting.inString = false) : nesting.after? front = some nesting := by
  induction front with
  | nil => rfl
  | cons character rest ih =>
      rcases plain character List.mem_cons_self with ⟨noQuote, noBrace, noBracket, noCloser⟩
      have first : nesting.step? character = some nesting := by
        rw [step?, if_neg (Bool.eq_false_iff.mp outside), if_neg (Bool.eq_false_iff.mp noCloser), stepOpen,
          if_neg noQuote, if_neg noBrace, if_neg noBracket]
      rw [after?_cons, first, Option.bind_some]
      exact ih fun other member => plain other (List.mem_cons_of_mem _ member)

theorem repairNesting_plain {front : List Char} (plain : forall character, character ∈ front -> Plain character)
    (outside : nesting.inString = false) : repairNesting nesting front = nesting :=
  repairNesting_of_after? (after?_plain plain outside)

theorem after?_quotable {body : List Char} (quotable : Quotable body) (closers : List Char) :
    after? ⟨true, false, closers⟩ body = some ⟨true, false, closers⟩ := by
  induction quotable with
  | empty => rfl
  | ordinary plain _ ih =>
      rcases plain with ⟨noQuote, noBackslash, _⟩
      rw [after?_cons, step?, if_pos rfl, stepString, if_neg Bool.false_ne_true, if_neg noBackslash, if_neg noQuote,
        Option.bind_some]
      exact ih
  | escape _ _ ih =>
      rw [after?_cons]
      change after? ⟨true, true, closers⟩ (_ :: _) = _
      rw [after?_cons]
      exact ih

/-- A text in which every string and every bracket is closed again. -/
def Balanced (text : List Char) : Prop :=
  start.after? text = some start

namespace Balanced

variable {left right : List Char}

theorem within (balanced : Balanced text) (closers : List Char) :
    after? ⟨false, false, closers⟩ text = some ⟨false, false, closers⟩ :=
  after?_within balanced closers

theorem of_plain (plain : forall character, character ∈ text -> Plain character) : Balanced text :=
  after?_plain plain rfl

theorem append (first : Balanced left) (second : Balanced right) : Balanced (left ++ right) := by
  unfold Balanced
  rw [after?_append, first]
  exact second

theorem cons (plain : Plain character) (rest : Balanced right) : Balanced (character :: right) := by
  have first : Balanced [character] := of_plain (List.forall_mem_singleton.mpr plain)
  exact first.append rest

theorem quoted (quotable : Quotable text) : Balanced (quoted text) := by
  unfold Balanced JsonText.quoted
  rw [after?_cons]
  change after? ⟨true, false, []⟩ (text ++ ['\x22']) = _
  rw [after?_append, after?_quotable quotable, Option.bind_some]
  rfl

theorem braces (inside : Balanced text) : Balanced ('\x7b' :: (text ++ ['\x7d'])) := by
  unfold Balanced
  rw [after?_cons]
  change after? ⟨false, false, ['\x7d']⟩ (text ++ ['\x7d']) = _
  rw [after?_append, inside.within, Option.bind_some]
  rfl

theorem brackets (inside : Balanced text) : Balanced ('[' :: (text ++ [']'])) := by
  unfold Balanced
  rw [after?_cons]
  change after? ⟨false, false, [']']⟩ (text ++ [']']) = _
  rw [after?_append, inside.within, Option.bind_some]
  rfl

end Balanced

theorem plain_of_space : forall character, character ∈ spaces -> Plain character :=
  List.all_iff_forall_prop.mp (by decide)

theorem plain_of_numeral : forall character, character ∈ numerals -> Plain character :=
  List.all_iff_forall_prop.mp (by decide)

theorem Balanced.of_blank (blank : Blank text) : Balanced text :=
  of_plain fun character member => plain_of_space character (blank character member)

theorem Balanced.of_written {numbers : Numbers} {form : Form} (written : Written numbers text form) :
    Balanced text := by
  induction written with
  | null => exact Balanced.of_plain (List.all_iff_forall_prop.mp (by decide))
  | isTrue => exact Balanced.of_plain (List.all_iff_forall_prop.mp (by decide))
  | isFalse => exact Balanced.of_plain (List.all_iff_forall_prop.mp (by decide))
  | number spelled =>
      exact Balanced.of_plain fun character member => plain_of_numeral character (numbers.numerals spelled character member)
  | string written => exact Balanced.quoted written.quotable
  | emptyArray blank => exact (Balanced.of_blank blank).brackets
  | array _ ih => exact ih.brackets
  | emptyObject blank => exact (Balanced.of_blank blank).braces
  | object _ ih => exact ih.braces
  | document before _ after ih =>
      exact ((Balanced.of_blank before).append ih).append (Balanced.of_blank after)
  | lastItem _ ih => exact ih
  | moreItems _ _ first others => exact first.append (others.cons (by decide))
  | lastMember before key middle _ ih =>
      have named := ((Balanced.of_blank before).append (Balanced.quoted key.quotable)).append (Balanced.of_blank middle)
      exact named.append (ih.cons (by decide))
  | moreMembers _ _ first others => exact first.append (others.cons (by decide))

theorem balanced_inside {numbers : Numbers} {fields : JsonObject}
    (written : Written numbers text (.value (.object fields))) :
    Exists fun inside => text = '\x7b' :: (inside ++ ['\x7d']) ∧ Balanced inside := by
  cases written with
  | emptyObject blank => exact ⟨_, rfl, Balanced.of_blank blank⟩
  | object written => exact ⟨_, rfl, Balanced.of_written written⟩

/-! ## Open braces -/

/-- A text in which the brace of an object is not closed yet: in front of the brace no string is
left open, and behind it stands the beginning of what is inside of the object. -/
def LeavesOpen (inside text : List Char) : Prop :=
  Exists fun before => Exists fun behind => text = before ++ '\x7b' :: behind ∧
    (repairNesting start before).inString = false ∧ behind <+: inside

theorem LeavesOpen.looksTruncatedFrom {inside : List Char} (leaves : LeavesOpen inside text)
    (balanced : Balanced inside) : AIBuddy.looksTruncatedFrom start text = true := by
  rcases leaves with ⟨before, behind, rfl, quiet, rest, rfl⟩
  rw [looksTruncatedFrom_eq, after?_append]
  cases read : start.after? before with
  | none => rfl
  | some nesting =>
      rw [repairNesting_of_after? read] at quiet
      have plain : nesting.escapeNext = false := Settled.after? (fun _ => rfl) read quiet
      rcases nesting with ⟨inString, escapeNext, closers⟩
      subst quiet plain
      rcases Option.bind_eq_some_iff.mp ((after?_append start behind rest).symm.trans balanced) with ⟨middle, first, -⟩
      have opened := after?_within first ('\x7d' :: closers)
      rw [Option.bind_some, after?_cons]
      change ((after? ⟨false, false, '\x7d' :: closers⟩ behind).map isOpen).getD true = true
      rw [show (⟨false, false, '\x7d' :: closers⟩ : JsonNesting) = start.within ('\x7d' :: closers) from rfl, opened]
      simp [JsonNesting.within, isOpen]

namespace LeavesOpen

variable {inside left right : List Char}

theorem dropFront (leaves : LeavesOpen inside (left ++ right)) (plain : forall character, character ∈ left -> Plain character) :
    LeavesOpen inside right := by
  rcases leaves with ⟨before, behind, same, quiet, cut⟩
  rcases List.append_eq_append_iff.mp same with ⟨others, rfl, rfl⟩ | ⟨others, rfl, rest⟩
  · refine ⟨others, behind, rfl, ?_, cut⟩
    rw [repairNesting_append, repairNesting_plain plain rfl] at quiet
    exact quiet
  · cases others with
    | nil => exact ⟨[], behind, rest.symm, rfl, cut⟩
    | cons character others =>
        rw [← (List.cons.inj rest).1] at plain
        exact absurd rfl (plain '\x7b' (by simp)).2.1

/-- What stands at the end does not matter as long as it opens no brace. -/
theorem dropBehind (leaves : LeavesOpen inside (left ++ right)) (plain : '\x7b' ∉ right) : LeavesOpen inside left := by
  rcases leaves with ⟨before, behind, same, quiet, cut⟩
  rcases List.append_eq_append_iff.mp same with ⟨others, rfl, rest⟩ | ⟨others, rfl, rest⟩
  · rw [rest] at plain
    exact absurd (List.mem_append_right _ List.mem_cons_self) plain
  · cases others with
    | nil =>
        rw [List.nil_append] at rest
        rw [← rest] at plain
        exact absurd List.mem_cons_self plain
    | cons character others =>
        rw [List.cons_append] at rest
        rcases List.cons.inj rest with ⟨rfl, rfl⟩
        exact ⟨before, others, rfl, quiet, (List.prefix_append _ _).trans cut⟩

end LeavesOpen

/-! ## What a repair closes -/

/-- Only closing brackets are remembered, and a backslash waits only inside of a string. -/
def Sound (nesting : JsonNesting) : Prop :=
  (forall closer, closer ∈ nesting.closers -> isCloser closer = true) ∧
    (nesting.escapeNext = true -> nesting.inString = true)

theorem Sound.repairNesting {nesting : JsonNesting} (sound : nesting.Sound) (text : List Char) :
    (AIBuddy.repairNesting nesting text).Sound := by
  induction text generalizing nesting with
  | nil => exact sound
  | cons character rest ih =>
      rcases sound with ⟨closers, escapes⟩
      rw [AIBuddy.repairNesting]
      split
      · rename_i inString
        apply ih
        unfold stepString
        split
        · exact ⟨closers, fun _ => inString⟩
        · rename_i plain
          rw [Bool.not_eq_true] at plain
          split
          · exact ⟨closers, fun _ => inString⟩
          · split
            · exact ⟨closers, fun waits => absurd (plain.symm.trans waits) (by decide)⟩
            · exact ⟨closers, escapes⟩
      · rename_i outside
        have plain : nesting.escapeNext ≠ true := fun waits => outside (escapes waits)
        split
        · split
          · exact ih ⟨fun closer member => closers closer (List.mem_of_mem_tail member), escapes⟩
          · exact ih ⟨closers, escapes⟩
        · apply ih
          unfold stepOpen
          split
          · exact ⟨closers, fun _ => rfl⟩
          · split
            · exact ⟨List.forall_mem_cons.mpr ⟨by decide, closers⟩, escapes⟩
            · split
              · exact ⟨List.forall_mem_cons.mpr ⟨by decide, closers⟩, escapes⟩
              · exact ⟨closers, escapes⟩

theorem repairNesting_closers {closers : List Char} (known : forall closer, closer ∈ closers -> isCloser closer = true) :
    AIBuddy.repairNesting ⟨false, false, closers⟩ closers = start := by
  induction closers with
  | nil => rfl
  | cons closer rest ih =>
      rw [List.forall_mem_cons] at known
      rw [AIBuddy.repairNesting, if_neg Bool.false_ne_true, if_pos known.1, if_pos List.head?_cons]
      exact ih known.2

end JsonNesting

/-- Whatever a text is, nothing is open behind its repair, and so a second repair adds nothing. -/
theorem repairTruncatedJson_closes (text : String) :
    repairNesting JsonNesting.start (repairTruncatedJson text).toList = JsonNesting.start ∧
      repairTruncatedJson (repairTruncatedJson text) = repairTruncatedJson text := by
  have closes : repairNesting JsonNesting.start (repairTruncatedJson text).toList = JsonNesting.start := by
    have start : JsonNesting.start.Sound := ⟨by simp [JsonNesting.start], by simp [JsonNesting.start]⟩
    have sound := start.repairNesting text.toList
    rw [repairTruncatedJson, String.toList_append, JsonNesting.repairNesting_append]
    generalize repairNesting JsonNesting.start text.toList = nesting at sound ⊢
    rcases nesting with ⟨inString, escapeNext, closers⟩
    simp only [String.toList_ofList, JsonNesting.repairNesting_append]
    rw [← JsonNesting.repairNesting_closers sound.1]
    congr 1
    cases inString with
    | false =>
        cases escapeNext with
        | false => rfl
        | true => exact absurd (sound.2 rfl) (by simp)
    | true => cases escapeNext <;> rfl
  refine ⟨closes, ?_⟩
  rw [repairTruncatedJson.eq_1 (repairTruncatedJson text), closes]
  exact String.append_empty

end AIBuddy
