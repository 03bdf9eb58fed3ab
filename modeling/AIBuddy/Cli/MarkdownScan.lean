import Mathlib.Data.List.DropRight
import AIBuddy.Support.Resume
import AIBuddy.Cli.MarkdownBuffer

namespace AIBuddy
namespace Markdown

/-!
# Resuming the scan of a markdown buffer

What is decided at a place of the buffer depends on what comes behind it: a fence is
looked for behind any amount of whitespace, and a closing fence looks at everything
behind itself.  The decision is settled once a line behind the place is complete and a
character that is neither whitespace nor a fence has been seen.  A scan that resumes
behind settled places drains what a scan of the whole buffer drains.
-/

/-! ## Settled decisions -/

/-- Neither whitespace nor a fence. -/
def solid (character : Char) : Bool :=
  !Text.isWhitespace character && character != '`' && character != '~'

section Stops

variable {text more : List Char} {stop : Char} (passes : Char -> Bool)

private theorem dropWhile_append_of_stop (member : stop ∈ text) (stops : passes stop = false) :
    (text ++ more).dropWhile passes = text.dropWhile passes ++ more := by
  rw [List.dropWhile_append, if_neg]
  intro empty
  have all := List.dropWhile_eq_nil_iff.mp (List.isEmpty_iff.mp empty) stop member
  rw [stops] at all
  exact Bool.noConfusion all

private theorem takeWhile_append_of_stop (member : stop ∈ text) (stops : passes stop = false) :
    (text ++ more).takeWhile passes = text.takeWhile passes := by
  induction text with
  | nil => exact absurd member List.not_mem_nil
  | cons first rest ih =>
      rw [List.cons_append, List.takeWhile_cons, List.takeWhile_cons]
      cases passed : passes first with
      | false => rfl
      | true =>
          rcases List.mem_cons.mp member with rfl | later
          · rw [stops] at passed
            exact Bool.noConfusion passed
          · simp only [if_true, ih later]

private theorem mem_dropWhile_of_stop (member : stop ∈ text) (stops : passes stop = false) :
    stop ∈ text.dropWhile passes := by
  have parts := List.takeWhile_append_dropWhile (p := passes) (l := text)
  rw [← parts] at member
  rcases List.mem_append.mp member with taken | dropped
  · have passed := List.mem_takeWhile_imp taken
    rw [stops] at passed
    exact Bool.noConfusion passed
  · exact dropped

private theorem startsWith_append (member : stop ∈ text) (first : Char) :
    startsWith (text ++ more) first = startsWith text first := by
  cases text with
  | nil => exact absurd member List.not_mem_nil
  | cons head rest => rfl

private theorem isEmpty_append_of_mem (member : stop ∈ text) : (text ++ more).isEmpty = text.isEmpty := by
  cases text with
  | nil => exact absurd member List.not_mem_nil
  | cons head rest => rfl

private theorem drop_length_takeWhile (text : List Char) :
    text.drop (text.takeWhile passes).length = text.dropWhile passes := by
  have parts := List.takeWhile_append_dropWhile (p := passes) (l := text)
  calc
    text.drop (text.takeWhile passes).length
        = (text.takeWhile passes ++ text.dropWhile passes).drop (text.takeWhile passes).length := by rw [parts]
    _ = text.dropWhile passes := List.drop_left

private theorem append_drop_length_takeWhile (text more : List Char) :
    (text ++ more).drop (text.takeWhile passes).length = text.dropWhile passes ++ more := by
  rw [List.drop_append_of_le_length (List.takeWhile_prefix passes).length_le, drop_length_takeWhile]

end Stops

theorem takeLine_append {text : List Char} (complete : '\n' ∈ text) (more : List Char) :
    takeLine (text ++ more) = takeLine text := by
  induction text with
  | nil => exact absurd complete List.not_mem_nil
  | cons first rest ih =>
      rw [List.cons_append, takeLine, takeLine]
      by_cases newline : first = '\n'
      · rw [if_pos newline, if_pos newline]
      · have later : '\n' ∈ rest := (List.mem_cons.mp complete).resolve_left (Ne.symm newline)
        rw [if_neg newline, if_neg newline, ih later]

/-- What is decided at the beginning of the text no longer changes. -/
structure Settled (text : List Char) : Prop where
  complete : '\n' ∈ text
  seen : Exists fun character => character ∈ text ∧ solid character = true

theorem checkCodeFence_append {line : List Char} (settled : Settled line) (more : List Char) (state : ParseState) :
    checkCodeFence (line ++ more) state = checkCodeFence line state := by
  rcases settled.seen with ⟨mark, member, solidMark⟩
  rw [solid, Bool.and_eq_true, Bool.and_eq_true, Bool.not_eq_true', bne_iff_ne, bne_iff_ne] at solidMark
  rcases solidMark with ⟨⟨visible, notBacktick⟩, notTilde⟩
  have trimmedMember := mem_dropWhile_of_stop Text.isWhitespace member visible
  rw [checkCodeFence, checkCodeFence, dropWhile_append_of_stop _ member visible, takeLine_append settled.complete]
  generalize line.dropWhile Text.isWhitespace = trimmed at trimmedMember
  cases trimmed with
  | nil => exact absurd trimmedMember List.not_mem_nil
  | cons fenceChar rest =>
      by_cases other : fenceChar ≠ '`' ∧ fenceChar ≠ '~'
      · simp only [List.cons_append, if_pos other]
      · have notFence : (mark == fenceChar) = false := by
          rw [beq_eq_false_iff_ne]
          rintro rfl
          exact other ⟨notBacktick, notTilde⟩
        have behind := mem_dropWhile_of_stop (fun character => character == fenceChar) trimmedMember notFence
        have sameRun := @takeWhile_append_of_stop _ more _ (fun character => character == fenceChar)
          trimmedMember notFence
        have sameBehind := append_drop_length_takeWhile (fun character => character == fenceChar)
          (fenceChar :: rest) more
        have allWhitespace : ((fenceChar :: rest).dropWhile fun character => character == fenceChar).all
            Text.isWhitespace = false :=
          List.all_eq_false.mpr ⟨mark, behind, by rw [visible]; exact Bool.false_ne_true⟩
        simp only [List.cons_append, if_neg other] at sameRun sameBehind ⊢
        simp only [sameRun, sameBehind, drop_length_takeWhile, isEmpty_append_of_mem behind,
          startsWith_append behind, List.all_append, allWhitespace, Bool.false_and]

theorem opensHeading_append {remaining : List Char} (complete : '\n' ∈ remaining) (more : List Char) :
    opensHeading (remaining ++ more) = opensHeading remaining := by
  have notHash : ('\n' == '#') = false := rfl
  have behind := mem_dropWhile_of_stop (fun character => character == '#') complete notHash
  simp only [opensHeading, startsWith_append complete,
    @takeWhile_append_of_stop _ more _ (fun character => character == '#') complete notHash,
    append_drop_length_takeWhile, drop_length_takeWhile, isEmpty_append_of_mem behind, startsWith_append behind]

theorem processLineStart_append {remaining : List Char} (settled : Settled remaining) (more : List Char)
    (state : ParseState) : processLineStart state (remaining ++ more) = processLineStart state remaining := by
  simp only [processLineStart, checkCodeFence_append settled, opensHeading_append settled.complete,
    startsWith_append settled.complete, isEmpty_append_of_mem settled.complete]

/-! ## Steps -/

theorem takeLine_ne_nil {text : List Char} (nonempty : text ≠ []) : takeLine text ≠ [] := by
  cases text with
  | nil => exact absurd rfl nonempty
  | cons first rest =>
      rw [takeLine]
      by_cases newline : first = '\n'
      · rw [if_pos newline]
        exact List.cons_ne_nil _ _
      · rw [if_neg newline]
        exact List.cons_ne_nil _ _

theorem checkCodeFence_length {line : List Char} {state result : ParseState} {length : Nat}
    (found : checkCodeFence line state = (result, some length)) : length = (takeLine line).length := by
  rw [checkCodeFence] at found
  cases trimmed : line.dropWhile Text.isWhitespace with
  | nil =>
      rw [trimmed] at found
      cases found
  | cons fenceChar rest =>
      simp only [trimmed] at found
      split at found
      · cases found
      · split at found
        · cases found
        · split at found
          · split at found
            · cases found
              rfl
            · cases found
          · cases found
            rfl

theorem processLineStart_moves {remaining : List Char} {state result : ParseState} {length : Nat}
    (nonempty : remaining ≠ []) (found : processLineStart state remaining = (result, some length)) : 0 < length := by
  rw [processLineStart] at found
  split at found
  · rename_i fenceState fenceLength fence
    cases found
    rw [checkCodeFence_length fence]
    exact List.length_pos_iff.mpr (takeLine_ne_nil nonempty)
  · split at found
    · cases found
    · split at found
      · cases found
      · split at found
        · cases found
        · split at found
          · cases found
            exact Nat.one_pos
          · cases found

theorem markSafe_pos (scan : ScanCheckpoint) : (markSafe scan).pos = scan.pos := by
  rw [markSafe]
  split
  · rfl
  · rfl

theorem readLine_pos (scan : ScanCheckpoint) (line : List Char) : (readLine scan line).pos = scan.pos + line.length := by
  rw [readLine]
  split
  · exact markSafe_pos _
  · rfl

theorem scanStep_rests {buffer : List Char} {scan : ScanCheckpoint} (ended : buffer.length ≤ scan.pos) :
    scanStep buffer scan = scan :=
  if_pos ended

theorem scanStep_moves {buffer : List Char} {scan : ScanCheckpoint} (inside : scan.pos < buffer.length) :
    scan.pos < (scanStep buffer scan).pos := by
  have nonempty : buffer.drop scan.pos ≠ [] := by
    rw [ne_eq, List.drop_eq_nil_iff]
    omega
  have lineLength := List.length_pos_iff.mpr (takeLine_ne_nil nonempty)
  rw [scanStep]
  split
  · rename_i ended
    omega
  · split
    · rename_i state length found
      rw [markSafe_pos]
      split at found
      · have moved := processLineStart_moves nonempty found
        exact Nat.lt_add_of_pos_right moved
      · cases found
    · split
      · exact Nat.lt_add_of_pos_right lineLength
      · rw [readLine_pos]
        exact Nat.lt_add_of_pos_right lineLength

/-- The scan of a buffer. -/
def markdownScan : Resume.Scan Char ScanCheckpoint where
  start := ScanCheckpoint.start
  place := ScanCheckpoint.pos
  step := scanStep
  rests := scanStep_rests
  moves := scanStep_moves

theorem atLineStart_append {buffer : List Char} {pos : Nat} (within : pos ≤ buffer.length) (more : List Char) :
    atLineStart (buffer ++ more) pos = atLineStart buffer pos := by
  rw [atLineStart, atLineStart]
  by_cases origin : pos = 0
  · rw [origin]
    rfl
  · rw [List.getElem?_append_left (by omega)]

theorem scanStep_append {buffer : List Char} {scan : ScanCheckpoint} (inside : scan.pos < buffer.length)
    (complete : '\n' ∈ buffer.drop scan.pos)
    (settled : atLineStart buffer scan.pos = true -> Settled (buffer.drop scan.pos)) (more : List Char) :
    scanStep (buffer ++ more) scan = scanStep buffer scan := by
  have notEnded : ¬ (buffer ++ more).length ≤ scan.pos := by
    rw [List.length_append]
    omega
  rw [scanStep, scanStep, if_neg notEnded, if_neg (Nat.not_le.mpr inside), List.drop_append_of_le_length
    (Nat.le_of_lt inside), takeLine_append complete, atLineStart_append (Nat.le_of_lt inside)]
  cases lineStart : atLineStart buffer scan.pos with
  | false => rfl
  | true => rw [processLineStart_append (settled lineStart)]

/-! ## Starts of lines before a place -/

private theorem length_le_dropWhile {passes : Char -> Bool} {stop : Char} (stops : passes stop = false)
    (front rest : List Char) : (stop :: rest).length ≤ ((front ++ stop :: rest).dropWhile passes).length := by
  rw [List.dropWhile_append]
  split
  · rw [List.dropWhile_cons, if_neg (by rw [stops]; exact Bool.false_ne_true)]
  · rw [List.length_append]
    exact Nat.le_add_left _ _

theorem le_lineStartBefore {buffer : List Char} {pos limit : Nat} (lineStart : atLineStart buffer pos = true)
    (within : pos ≤ limit) : pos ≤ lineStartBefore buffer limit := by
  cases pos with
  | zero => exact Nat.zero_le _
  | succ last =>
      have newline : buffer[last]? = some '\n' := by simpa [atLineStart] using lineStart
      rcases List.getElem?_eq_some_iff.mp newline with ⟨inside, found⟩
      have front : buffer.take (last + 1) = buffer.take last ++ ['\n'] := by
        rw [List.take_succ_eq_append_getElem inside, found]
      have split : buffer.take limit = buffer.take (last + 1) ++ (buffer.take limit).drop (last + 1) := by
        have prefixSame : (buffer.take limit).take (last + 1) = buffer.take (last + 1) := by
          rw [List.take_take, Nat.min_eq_left within]
        rw [← prefixSame, List.take_append_drop]
      have kept := @length_le_dropWhile (fun character => character != '\n') '\n' rfl
        ((buffer.take limit).drop (last + 1)).reverse (buffer.take last).reverse
      rw [lineStartBefore, split, front, List.rdropWhile, List.length_reverse, List.reverse_append,
        List.reverse_append, List.reverse_singleton, List.singleton_append]
      refine Nat.le_trans ?_ kept
      rw [List.length_cons, List.length_reverse, List.length_take]
      omega

theorem settled_before {buffer : List Char} {pos place : Nat} (lineStart : atLineStart buffer pos = true)
    (before : place < pos) :
    '\n' ∈ buffer.drop place ∧
      ((buffer.drop (lineStartBefore buffer (pos - 1))).any solid = true -> atLineStart buffer place = true ->
        Settled (buffer.drop place)) := by
  have newline : buffer[pos - 1]? = some '\n' := by
    have notOrigin : pos ≠ 0 := by omega
    simpa [atLineStart, notOrigin] using lineStart
  have complete : '\n' ∈ buffer.drop place := by
    apply List.mem_of_getElem? (i := pos - 1 - place)
    rw [List.getElem?_drop, Nat.add_sub_cancel' (by omega)]
    exact newline
  refine ⟨complete, ?_⟩
  intro seen placeStart
  rcases List.any_eq_true.mp seen with ⟨mark, member, solidMark⟩
  have earlier := le_lineStartBefore placeStart (Nat.le_sub_one_of_lt before)
  exact ⟨complete, mark, List.drop_subset_drop_left _ earlier member, solidMark⟩

/-! ## The loop -/

theorem scanLoop_scan (buffer : List Char) (limit fuel : Nat) (scan checkpoint : ScanCheckpoint) :
    (scanLoop buffer limit fuel scan checkpoint).1 = (scanStep buffer)^[fuel] scan := by
  induction fuel generalizing scan checkpoint with
  | zero => rfl
  | succ fuel ih =>
      rw [scanLoop]
      split
      · rw [ih, Function.iterate_succ_apply]
      · rename_i ended
        exact (Function.iterate_fixed (scanStep_rests (Nat.le_of_not_lt ended)) _).symm

theorem scanLoop_checkpoint (buffer : List Char) (limit fuel : Nat) (scan checkpoint : ScanCheckpoint) :
    (scanLoop buffer limit fuel scan checkpoint).2 = checkpoint ∨
      Exists fun count => (scanLoop buffer limit fuel scan checkpoint).2 = (scanStep buffer)^[count] scan ∧
        ((scanStep buffer)^[count] scan).pos < buffer.length ∧
          atLineStart buffer ((scanStep buffer)^[count] scan).pos = true := by
  induction fuel generalizing scan checkpoint with
  | zero => exact .inl rfl
  | succ fuel ih =>
      rw [scanLoop]
      split
      · rename_i inside
        rcases ih (scanStep buffer scan)
          (if atLineStart buffer scan.pos ∧ scan.pos ≤ limit then scan else checkpoint) with kept | ⟨count, reached⟩
        · rw [kept]
          split
          · rename_i taken
            exact .inr ⟨0, rfl, inside, taken.1⟩
          · exact .inl rfl
        · exact .inr ⟨count + 1, reached⟩
      · exact .inl rfl

theorem findSafeEnd_place (buffer : List Char) (checkpoint : ScanCheckpoint) :
    (findSafeEnd buffer checkpoint).1 = (markdownScan.final buffer checkpoint).lastSafe :=
  congrArg ScanCheckpoint.lastSafe (scanLoop_scan ..)

/-! ## Pushes -/

namespace MarkdownBuffer

/-- The checkpoint is at the beginning, or something solid stands in or behind the line
right before it. -/
def Stable (markdown : MarkdownBuffer) : Prop :=
  markdown.checkpoint.pos = 0 ∨
    (markdown.buffer.drop (lineStartBefore markdown.buffer (markdown.checkpoint.pos - 1))).any solid = true

instance (markdown : MarkdownBuffer) : Decidable markdown.Stable :=
  inferInstanceAs (Decidable (_ ∨ _))

/-- The buffer is stable before every push. -/
def StableAlong (markdown : MarkdownBuffer) : List (List Char) -> Prop
  | [] => True
  | chunk :: rest => markdown.Stable ∧ StableAlong (markdown.push chunk).2 rest

/-- As long as the buffer is stable, every scan passes through the checkpoint. -/
def Kept (markdown : MarkdownBuffer) : Prop :=
  markdown.Stable -> markdownScan.Sound markdown.buffer markdown.checkpoint

theorem kept_start (buffer : List Char) : Kept ⟨buffer, ScanCheckpoint.start⟩ :=
  fun _ => markdownScan.sound_start buffer

theorem kept_iterate {buffer : List Char} {checkpoint : ScanCheckpoint} {count : Nat}
    (sound : markdownScan.Sound buffer checkpoint)
    (inside : ((scanStep buffer)^[count] checkpoint).pos < buffer.length)
    (lineStart : atLineStart buffer ((scanStep buffer)^[count] checkpoint).pos = true) :
    Kept ⟨buffer, (scanStep buffer)^[count] checkpoint⟩ := by
  intro stable
  rcases stable with origin | seen
  · rcases sound [] with ⟨front, passes⟩
    rw [List.append_nil] at passes
    have reached : (markdownScan.step buffer)^[count + front] markdownScan.start =
        (scanStep buffer)^[count] checkpoint := by
      rw [Function.iterate_add_apply, passes]
      rfl
    rw [Resume.Scan.eq_start_of_place rfl reached origin]
    exact markdownScan.sound_start buffer
  · apply sound.iterate inside
    intro earlier before more
    rcases settled_before lineStart before with ⟨complete, settled⟩
    exact scanStep_append (Nat.lt_trans before inside) complete (settled seen) more

theorem push_drains {markdown : MarkdownBuffer} {chunk : List Char}
    (drains : 0 < (findSafeEnd (markdown.buffer ++ chunk) markdown.checkpoint).1) :
    markdown.push chunk =
      (some ((markdown.buffer ++ chunk).take (findSafeEnd (markdown.buffer ++ chunk) markdown.checkpoint).1),
        ⟨(markdown.buffer ++ chunk).drop (findSafeEnd (markdown.buffer ++ chunk) markdown.checkpoint).1,
          ScanCheckpoint.start⟩) :=
  if_pos drains

theorem push_holds {markdown : MarkdownBuffer} {chunk : List Char}
    (holds : ¬ 0 < (findSafeEnd (markdown.buffer ++ chunk) markdown.checkpoint).1) :
    markdown.push chunk =
      (none, ⟨markdown.buffer ++ chunk, (findSafeEnd (markdown.buffer ++ chunk) markdown.checkpoint).2⟩) :=
  if_neg holds

theorem push_of_sound {markdown : MarkdownBuffer}
    (sound : markdownScan.Sound markdown.buffer markdown.checkpoint) (chunk : List Char) :
    (markdown.push chunk).1 = (markdown.reset.push chunk).1 ∧
      (markdown.push chunk).2.buffer = (markdown.reset.push chunk).2.buffer ∧ (markdown.push chunk).2.Kept := by
  have samePlace : (findSafeEnd (markdown.buffer ++ chunk) markdown.checkpoint).1 =
      (findSafeEnd (markdown.reset.buffer ++ chunk) markdown.reset.checkpoint).1 := by
    rw [findSafeEnd_place, findSafeEnd_place]
    exact congrArg ScanCheckpoint.lastSafe (sound.final_eq chunk)
  by_cases drains : 0 < (findSafeEnd (markdown.buffer ++ chunk) markdown.checkpoint).1
  · rw [push_drains drains, push_drains (samePlace ▸ drains), samePlace]
    exact ⟨rfl, rfl, kept_start _⟩
  · rw [push_holds drains, push_holds (samePlace ▸ drains)]
    refine ⟨rfl, rfl, ?_⟩
    rcases scanLoop_checkpoint (markdown.buffer ++ chunk) (stableScanLimit (markdown.buffer ++ chunk))
      (markdown.buffer ++ chunk).length markdown.checkpoint markdown.checkpoint with
      old | ⟨count, reached, inside, lineStart⟩
    · rw [findSafeEnd, old]
      exact fun _ => sound.append chunk
    · rw [findSafeEnd, reached]
      exact kept_iterate (sound.append chunk) inside lineStart

/-! ## Streams -/

/-- What a full scan drains depends on the text of the buffer only. -/
theorem rescan_of_buffer_eq {first second : MarkdownBuffer} (same : first.buffer = second.buffer)
    (chunks : List (List Char)) : first.rescan chunks = second.rescan chunks := by
  have sameReset : first.reset = second.reset := by
    rw [reset, reset, same]
  cases chunks with
  | nil => exact congrArg (Prod.mk []) same
  | cons chunk rest => rw [rescan, rescan, sameReset]

theorem stream_of_kept {markdown : MarkdownBuffer} (kept : markdown.Kept) (chunks : List (List Char))
    (stable : markdown.StableAlong chunks) : markdown.stream chunks = markdown.rescan chunks := by
  induction chunks generalizing markdown with
  | nil => rfl
  | cons chunk rest ih =>
      rcases push_of_sound (kept stable.1) chunk with ⟨sameDrain, sameBuffer, keptNext⟩
      rw [stream, rescan, ih keptNext stable.2, sameDrain, rescan_of_buffer_eq sameBuffer]

/-- In every stream whose checkpoints stay behind settled lines, the pushes drain what
full scans drain. -/
theorem stream_eq_rescan (chunks : List (List Char)) (stable : new.StableAlong chunks) :
    new.stream chunks = new.rescan chunks :=
  stream_of_kept (kept_start []) chunks stable

/-- A document cut inside a fence that is opened within bold text. -/
def boldFence : List (List Char) :=
  ["**a\n".toList, "b\n``".toList, "`\nc\n```\n".toList, "d**\n".toList]

theorem boldFence_stream : new.stream boldFence = new.rescan boldFence :=
  stream_eq_rescan boldFence (by
    refine ⟨?_, ?_, ?_, ?_, trivial⟩
    · decide +kernel
    · decide +kernel
    · decide +kernel
    · decide +kernel)

/-- A fence is looked for behind a line of a no-break space, but such a line is taken
for settled. -/
theorem noBreakLine_drains_later :
    new.stream ["**a\n\u00a0\n`".toList, "``\nx**\n".toList] =
        ([none, none], "**a\n\u00a0\n```\nx**\n".toList) ∧
      new.rescan ["**a\n\u00a0\n`".toList, "``\nx**\n".toList] =
        ([none, some "**a\n\u00a0\n```\nx**\n".toList], []) := by
  decide +kernel

end MarkdownBuffer

end Markdown
end AIBuddy
