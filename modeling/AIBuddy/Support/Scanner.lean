import Mathlib.Data.List.Basic

namespace AIBuddy
namespace Scanner

/-!
# Scanners with lookahead

A scanner reads a text from left to right.  It looks at all that it has of the rest
of the text and either passes some symbols on, takes some out, or holds everything
back until more of the text is there.  Each symbol is passed on together with the
state in which it was read.

A scanner that is fed piece by piece agrees with one that has the whole text, as
long as no symbol is passed on that would not be passed on with the text behind the
piece.
-/

/-- What a scanner does at a place of the text. -/
inductive Verdict (State : Type) where
  | pass (length : Nat)
  | take (length : Nat) (next : State)
  | hold
deriving DecidableEq

/-- What a scanner does in each state, with the rest of the text.  It goes on by at
least one symbol, and by no more than there are. -/
structure Look (State Symbol : Type) where
  verdict : State -> List Symbol -> Verdict State
  pass_bounds : forall {state symbol rest length},
    verdict state (symbol :: rest) = .pass length -> 0 < length ∧ length ≤ (symbol :: rest).length
  take_bounds : forall {state symbol rest length next},
    verdict state (symbol :: rest) = .take length next -> 0 < length ∧ length ≤ (symbol :: rest).length

variable {State Symbol : Type}

/-- What was passed on, the state behind it, and what is held back. -/
structure Scan (State Symbol : Type) where
  passed : List (State × Symbol)
  state : State
  held : List Symbol

/-- Symbols that are read in one state. -/
def readIn (state : State) (text : List Symbol) : List (State × Symbol) :=
  text.map fun symbol => (state, symbol)

/-- Put symbols in front of what was passed on. -/
def Scan.after (scan : Scan State Symbol) (earlier : List (State × Symbol)) : Scan State Symbol :=
  { scan with passed := earlier ++ scan.passed }

/-- Read a text until something is held back. -/
def scan (look : Look State Symbol) (state : State) : List Symbol -> Scan State Symbol
  | [] => ⟨[], state, []⟩
  | symbol :: rest =>
      match verdict : look.verdict state (symbol :: rest) with
      | .pass length =>
          (scan look state ((symbol :: rest).drop length)).after (readIn state ((symbol :: rest).take length))
      | .take length next => scan look next ((symbol :: rest).drop length)
      | .hold => ⟨[], state, symbol :: rest⟩
termination_by text => text.length
decreasing_by
  · have bounds := look.pass_bounds verdict
    simp only [List.length_drop, List.length_cons] at bounds ⊢
    omega
  · have bounds := look.take_bounds verdict
    simp only [List.length_drop, List.length_cons] at bounds ⊢
    omega

/-- Everything that is read of a text when nothing follows it: what is held back is
passed on at the end. -/
def readAll (look : Look State Symbol) (state : State) (text : List Symbol) : List (State × Symbol) :=
  let result := scan look state text
  result.passed ++ readIn result.state result.held

/-- Read a text in pieces. -/
def readPieces (look : Look State Symbol) (state : State) (held : List Symbol) :
    List (List Symbol) -> List (State × Symbol)
  | [] => readIn state held
  | piece :: rest =>
      let result := scan look state (held ++ piece)
      result.passed ++ readPieces look result.state result.held rest

/-! ## One step -/

section Steps

variable {look : Look State Symbol} {state next : State} {symbol : Symbol} {rest : List Symbol} {length : Nat}

@[simp] theorem readIn_nil (state : State) : readIn state ([] : List Symbol) = [] := rfl

@[simp] theorem readIn_cons (state : State) (symbol : Symbol) (rest : List Symbol) :
    readIn state (symbol :: rest) = (state, symbol) :: readIn state rest := rfl

@[simp] theorem readIn_append (state : State) (left right : List Symbol) :
    readIn state (left ++ right) = readIn state left ++ readIn state right := List.map_append

@[simp] theorem length_readIn (state : State) (text : List Symbol) : (readIn state text).length = text.length :=
  List.length_map _

theorem readIn_take_drop (state : State) (text : List Symbol) (length : Nat) :
    readIn state (text.take length) ++ readIn state (text.drop length) = readIn state text := by
  rw [← readIn_append, List.take_append_drop]

@[simp] theorem Scan.after_nil (scan : Scan State Symbol) : scan.after [] = scan := rfl

theorem Scan.after_after (scan : Scan State Symbol) (first second : List (State × Symbol)) :
    (scan.after second).after first = scan.after (first ++ second) := by
  simp [Scan.after]

@[simp] theorem scan_nil (look : Look State Symbol) (state : State) : scan look state [] = ⟨[], state, []⟩ := by
  rw [scan]

theorem scan_pass (verdict : look.verdict state (symbol :: rest) = .pass length) :
    scan look state (symbol :: rest) =
      (scan look state ((symbol :: rest).drop length)).after (readIn state ((symbol :: rest).take length)) := by
  rw [scan]
  split
  · simp_all
  · simp_all
  · simp_all

theorem scan_take (verdict : look.verdict state (symbol :: rest) = .take length next) :
    scan look state (symbol :: rest) = scan look next ((symbol :: rest).drop length) := by
  rw [scan]
  split
  · simp_all
  · simp_all
  · simp_all

theorem scan_hold (verdict : look.verdict state (symbol :: rest) = .hold) :
    scan look state (symbol :: rest) = ⟨[], state, symbol :: rest⟩ := by
  rw [scan]
  split
  · simp_all
  · simp_all
  · rfl

@[simp] theorem readAll_nil (look : Look State Symbol) (state : State) : readAll look state [] = [] := by
  simp [readAll]

theorem readAll_pass (verdict : look.verdict state (symbol :: rest) = .pass length) :
    readAll look state (symbol :: rest) =
      readIn state ((symbol :: rest).take length) ++ readAll look state ((symbol :: rest).drop length) := by
  simp [readAll, scan_pass verdict, Scan.after]

theorem readAll_take (verdict : look.verdict state (symbol :: rest) = .take length next) :
    readAll look state (symbol :: rest) = readAll look next ((symbol :: rest).drop length) := by
  simp only [readAll, scan_take verdict]

theorem readAll_hold (verdict : look.verdict state (symbol :: rest) = .hold) :
    readAll look state (symbol :: rest) = readIn state (symbol :: rest) := by
  simp [readAll, scan_hold verdict]

end Steps

/-! ## Induction along a scan -/

theorem scan_induction (look : Look State Symbol) {motive : State -> List Symbol -> Prop}
    (nil : forall state, motive state [])
    (pass : forall state symbol rest length, look.verdict state (symbol :: rest) = .pass length ->
      motive state ((symbol :: rest).drop length) -> motive state (symbol :: rest))
    (take : forall state symbol rest length next, look.verdict state (symbol :: rest) = .take length next ->
      motive next ((symbol :: rest).drop length) -> motive state (symbol :: rest))
    (hold : forall state symbol rest, look.verdict state (symbol :: rest) = .hold -> motive state (symbol :: rest))
    (state : State) (text : List Symbol) : motive state text := by
  induction size : text.length using Nat.strongRecOn generalizing state text with
  | ind size ih =>
      cases text with
      | nil => exact nil state
      | cons symbol rest =>
          subst size
          cases verdict : look.verdict state (symbol :: rest) with
          | pass length =>
              have bounds := look.pass_bounds verdict
              refine pass state symbol rest length verdict (ih _ ?_ state _ rfl)
              simp only [List.length_drop, List.length_cons] at bounds ⊢
              omega
          | take length next =>
              have bounds := look.take_bounds verdict
              refine take state symbol rest length next verdict (ih _ ?_ next _ rfl)
              simp only [List.length_drop, List.length_cons] at bounds ⊢
              omega
          | hold => exact hold state symbol rest verdict

theorem scan_held (look : Look State Symbol) (state : State) (text : List Symbol) :
    scan look (scan look state text).state (scan look state text).held =
      ⟨[], (scan look state text).state, (scan look state text).held⟩ := by
  induction state, text using scan_induction look with
  | nil state => simp
  | pass state symbol rest length verdict ih =>
      rw [scan_pass verdict]
      exact ih
  | take state symbol rest length next verdict ih =>
      rw [scan_take verdict]
      exact ih
  | hold state symbol rest verdict =>
      rw [scan_hold verdict]
      exact scan_hold verdict

theorem readAll_held (look : Look State Symbol) (state : State) (text : List Symbol) :
    readAll look (scan look state text).state (scan look state text).held =
      readIn (scan look state text).state (scan look state text).held := by
  rw [readAll, scan_held]
  rfl

theorem held_suffix (look : Look State Symbol) (state : State) (text : List Symbol) :
    (scan look state text).held <:+ text := by
  induction state, text using scan_induction look with
  | nil state => simp
  | pass state symbol rest length verdict ih =>
      rw [scan_pass verdict]
      exact ih.trans (List.drop_suffix length _)
  | take state symbol rest length next verdict ih =>
      rw [scan_take verdict]
      exact ih.trans (List.drop_suffix length _)
  | hold state symbol rest verdict =>
      simp only [scan_hold verdict, List.suffix_refl]

/-! ## How much is taken out -/

theorem readAll_length (look : Look State Symbol) {least : Nat}
    (takes : forall state text length next, look.verdict state text = .take length next -> least ≤ length)
    (state : State) (text : List Symbol) :
    (readAll look state text).length = text.length ∨ (readAll look state text).length + least ≤ text.length := by
  induction state, text using scan_induction look with
  | nil state => simp
  | pass state symbol rest length verdict ih =>
      have bounds := look.pass_bounds verdict
      rw [readAll_pass verdict, List.length_append, length_readIn, List.length_take]
      rw [List.length_drop] at ih
      omega
  | take state symbol rest length next verdict ih =>
      have bounds := look.take_bounds verdict
      have enough := takes state (symbol :: rest) length next verdict
      rw [readAll_take verdict]
      rw [List.length_drop] at ih
      omega
  | hold state symbol rest verdict =>
      left
      rw [readAll_hold verdict, length_readIn]

theorem readAll_length_le (look : Look State Symbol) (state : State) (text : List Symbol) :
    (readAll look state text).length ≤ text.length := by
  have none := readAll_length look (fun _ _ length _ _ => Nat.zero_le length) state text
  omega

theorem readAll_of_length (look : Look State Symbol) (state : State) (text : List Symbol)
    (all : (readAll look state text).length = text.length) : readAll look state text = readIn state text := by
  induction state, text using scan_induction look with
  | nil state => simp
  | pass state symbol rest length verdict ih =>
      have bounds := look.pass_bounds verdict
      rw [readAll_pass verdict, List.length_append, length_readIn, List.length_take] at all
      rw [readAll_pass verdict, ih, readIn_take_drop]
      rw [List.length_drop]
      omega
  | take state symbol rest length next verdict ih =>
      have bounds := look.take_bounds verdict
      have shorter := readAll_length_le look next ((symbol :: rest).drop length)
      rw [readAll_take verdict] at all
      rw [List.length_drop] at shorter
      omega
  | hold state symbol rest verdict => exact readAll_hold verdict

/-! ## A beginning that is passed on symbol by symbol -/

/-- Each symbol of a text is passed on by itself when another text follows. -/
def Passes (look : Look State Symbol) (state : State) : List Symbol -> List Symbol -> Prop
  | [], _ => True
  | symbol :: rest, more =>
      look.verdict state (symbol :: rest ++ more) = .pass 1 ∧ Passes look state rest more

theorem readAll_passes {look : Look State Symbol} {state : State} {text more : List Symbol}
    (passes : Passes look state text more) :
    readAll look state (text ++ more) = readIn state text ++ readAll look state more := by
  induction text with
  | nil => simp
  | cons symbol rest ih =>
      rw [List.cons_append, readAll_pass (by exact passes.1)]
      simp only [List.take_succ_cons, List.take_zero, List.drop_succ_cons, List.drop_zero, readIn_cons, readIn_nil,
        List.cons_append, List.nil_append]
      rw [ih passes.2]

theorem passes_or_stops (look : Look State Symbol) (state : State) (text more : List Symbol) :
    Passes look state text more ∨ Exists fun before => Exists fun symbol => Exists fun rest =>
      text = before ++ symbol :: rest ∧ Passes look state before (symbol :: rest ++ more) ∧
        look.verdict state (symbol :: rest ++ more) ≠ .pass 1 := by
  induction text with
  | nil => exact Or.inl trivial
  | cons symbol rest ih =>
      by_cases passed : look.verdict state (symbol :: rest ++ more) = .pass 1
      · rcases ih with all | ⟨before, stop, behind, split, passes, stops⟩
        · exact Or.inl ⟨passed, all⟩
        · subst split
          refine Or.inr ⟨symbol :: before, stop, behind, rfl, ⟨?_, passes⟩, stops⟩
          simpa using passed
      · exact Or.inr ⟨[], symbol, rest, rfl, trivial, passed⟩

/-! ## Cutting a text -/

/-- Nothing that is passed on before a cut would be treated differently with the text
behind the cut. -/
def Settled (look : Look State Symbol) (more : List Symbol) (state : State) : List Symbol -> Prop
  | [] => True
  | symbol :: rest =>
      match verdict : look.verdict state (symbol :: rest) with
      | .pass length => look.verdict state (symbol :: rest ++ more) = .pass length ∧
          Settled look more state ((symbol :: rest).drop length)
      | .take length next => Settled look more next ((symbol :: rest).drop length)
      | .hold => True
termination_by text => text.length
decreasing_by
  · have bounds := look.pass_bounds verdict
    simp only [List.length_drop, List.length_cons] at bounds ⊢
    omega
  · have bounds := look.take_bounds verdict
    simp only [List.length_drop, List.length_cons] at bounds ⊢
    omega

section Cuts

variable {look : Look State Symbol} {more : List Symbol} {state next : State} {symbol : Symbol}
  {rest : List Symbol} {length : Nat}

theorem settled_pass (verdict : look.verdict state (symbol :: rest) = .pass length) :
    Settled look more state (symbol :: rest) ↔ look.verdict state (symbol :: rest ++ more) = .pass length ∧
      Settled look more state ((symbol :: rest).drop length) := by
  rw [Settled]
  split
  · simp_all
  · simp_all
  · simp_all

theorem settled_take (verdict : look.verdict state (symbol :: rest) = .take length next) :
    Settled look more state (symbol :: rest) ↔ Settled look more next ((symbol :: rest).drop length) := by
  rw [Settled]
  split
  · simp_all
  · simp_all
  · simp_all

/-- Taking symbols out does not depend on what follows them. -/
def Final (look : Look State Symbol) : Prop :=
  forall state text more length next, look.verdict state text = .take length next ->
    look.verdict state (text ++ more) = .take length next

theorem scan_append (final : Final look) (text : List Symbol) (settled : Settled look more state text) :
    scan look state (text ++ more) =
      (scan look (scan look state text).state ((scan look state text).held ++ more)).after
        (scan look state text).passed := by
  induction state, text using scan_induction look with
  | nil state => simp
  | pass state symbol rest length verdict ih =>
      rw [settled_pass verdict] at settled
      have bounds := look.pass_bounds verdict
      have behind := settled.1
      rw [List.cons_append] at behind ⊢
      rw [scan_pass behind, ← List.cons_append, List.drop_append_of_le_length bounds.2,
        List.take_append_of_le_length bounds.2, ih settled.2, scan_pass verdict, Scan.after_after]
      rfl
  | take state symbol rest length next verdict ih =>
      rw [settled_take verdict] at settled
      have bounds := look.take_bounds verdict
      have behind := final state (symbol :: rest) more length next verdict
      rw [List.cons_append] at behind ⊢
      rw [scan_take behind, scan_take verdict, ← ih settled, ← List.cons_append,
        List.drop_append_of_le_length bounds.2]
  | hold state symbol rest verdict => rw [scan_hold verdict, Scan.after_nil]

/-- All cuts between pieces are settled. -/
def SettledPieces (look : Look State Symbol) (state : State) (held : List Symbol) : List (List Symbol) -> Prop
  | [] => True
  | piece :: rest =>
      Settled look rest.flatten state (held ++ piece) ∧
        SettledPieces look (scan look state (held ++ piece)).state (scan look state (held ++ piece)).held rest

theorem readPieces_eq (final : Final look) (pieces : List (List Symbol)) (held : List Symbol)
    (start : readAll look state held = readIn state held) (settled : SettledPieces look state held pieces) :
    readPieces look state held pieces = readAll look state (held ++ pieces.flatten) := by
  induction pieces generalizing state held with
  | nil => simp [readPieces, start]
  | cons piece rest ih =>
      have whole := scan_append final (held ++ piece) settled.1
      simp only [readPieces]
      rw [ih _ (readAll_held look state (held ++ piece)) settled.2, List.flatten_cons,
        ← List.append_assoc, readAll, readAll, whole]
      simp [Scan.after]

end Cuts

end Scanner
end AIBuddy
