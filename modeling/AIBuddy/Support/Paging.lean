import Mathlib.Order.Lattice
import Mathlib.Data.List.Basic

namespace AIBuddy
namespace Paging

/-!
# Reading an ordered list in pages

The items of a list in descending order are read page by page.  A page starts below
a cursor, and the cursor of the next page is made from the last item of the page.
If the cursor is not exactly the rank of that item, items may be read twice or left
out; what the cursor has to satisfy at each end of a page is stated and shown to be
necessary.
-/

variable {α γ κ : Type}

/-! ## Following cursors -/

/-- What is read by following the cursors of the pages until there is none. -/
inductive Follows (pageAt : Option γ -> List α × Option γ) : Option γ -> List α -> Prop where
  | last {cursor : Option γ} (ends : (pageAt cursor).2 = none) : Follows pageAt cursor (pageAt cursor).1
  | next {cursor : Option γ} {onwards : γ} {rest : List α} (goesOn : (pageAt cursor).2 = some onwards)
      (follows : Follows pageAt (some onwards) rest) : Follows pageAt cursor ((pageAt cursor).1 ++ rest)

theorem Follows.first {pageAt : Option γ -> List α × Option γ} {cursor : Option γ} {items : List α}
    (follows : Follows pageAt cursor items) : Exists fun rest => items = (pageAt cursor).1 ++ rest := by
  cases follows with
  | last ends => exact ⟨[], (List.append_nil _).symm⟩
  | next goesOn follows => exact ⟨_, rfl⟩

theorem Follows.eq_of_last {pageAt : Option γ -> List α × Option γ} {cursor : Option γ} {items : List α}
    (follows : Follows pageAt cursor items) (ends : (pageAt cursor).2 = none) : items = (pageAt cursor).1 := by
  cases follows with
  | last _ => rfl
  | next goesOn _ =>
      rw [ends] at goesOn
      cases goesOn

theorem Follows.onwards {pageAt : Option γ -> List α × Option γ} {cursor : Option γ} {items : List α} {after : γ}
    (follows : Follows pageAt cursor items) (goesOn : (pageAt cursor).2 = some after) :
    Exists fun rest => items = (pageAt cursor).1 ++ rest ∧ Follows pageAt (some after) rest := by
  cases follows with
  | last ends =>
      rw [ends] at goesOn
      cases goesOn
  | next leads rest =>
      rw [goesOn] at leads
      cases leads
      exact ⟨_, rfl, rest⟩

/-! ## Pages of an ordered list -/

variable [LinearOrder κ] (rank : α -> κ) (position : γ -> κ) (mark : α -> γ) (size : Nat)

/-- The items below a cursor. -/
def below (items : List α) : Option γ -> List α
  | none => items
  | some cursor => items.filter fun item => decide (rank item < position cursor)

/-- A page, and the cursor of the next one if there are more items. -/
def page (items : List α) (cursor : Option γ) : List α × Option γ :=
  let rows := below rank position items cursor
  (rows.take size, if size < rows.length then rows[size - 1]?.map mark else none)

/-- The cursor made from the last item of a page lies between it and the next item. -/
def Separates (anchor next : α) : Prop :=
  position (mark anchor) ≤ rank anchor ∧ rank next < position (mark anchor)

/-- The cursors separate at the ends of all pages. -/
def SeparatesPages (items : List α) : Prop :=
  forall index anchor next, items[(index + 1) * size - 1]? = some anchor ->
    items[(index + 1) * size]? = some next -> Separates rank position mark anchor next

variable {rank position mark size} {items : List α}

/-! ## The page behind another one -/

private theorem drop_page (index : Nat) :
    items.drop ((index + 1) * size) = (items.drop (index * size)).drop size := by
  rw [List.drop_drop, Nat.succ_mul]

variable {cursor : Option γ} {index : Nat}

theorem page_last (mark : α -> γ) (selects : below rank position items cursor = items.drop (index * size))
    (short : (items.drop (index * size)).length ≤ size) :
    page rank position mark size items cursor = (items.drop (index * size), none) := by
  rw [page, selects]
  simp only [List.take_of_length_le short, if_neg (Nat.not_lt_of_le short)]

theorem page_next (mark : α -> γ) (positive : 1 ≤ size) (selects : below rank position items cursor = items.drop (index * size))
    (long : size < (items.drop (index * size)).length) :
    Exists fun anchor => Exists fun next => items[(index + 1) * size - 1]? = some anchor ∧
      items[(index + 1) * size]? = some next ∧
      page rank position mark size items cursor = ((items.drop (index * size)).take size, some (mark anchor)) := by
  rw [List.length_drop] at long
  have product : (index + 1) * size = index * size + size := Nat.succ_mul index size
  have inside : (index + 1) * size < items.length := by omega
  have anchorInside : (index + 1) * size - 1 < items.length := by omega
  refine ⟨items[(index + 1) * size - 1], items[(index + 1) * size], List.getElem?_eq_getElem anchorInside,
    List.getElem?_eq_getElem inside, ?_⟩
  have place : index * size + (size - 1) = (index + 1) * size - 1 := by omega
  rw [page, selects]
  simp only [List.length_drop, if_pos long, List.getElem?_drop, place,
    List.getElem?_eq_getElem anchorInside, Option.map_some]

section Suffixes

variable (ordered : items.Pairwise fun first second => rank second < rank first)

include ordered

theorem below_eq_drop (cursor : γ) : Exists fun start => below rank position items (some cursor) = items.drop start := by
  rw [below]
  induction items with
  | nil => exact ⟨0, rfl⟩
  | cons first rest ih =>
      rw [List.pairwise_cons] at ordered
      by_cases isBelow : rank first < position cursor
      · refine ⟨0, ?_⟩
        rw [List.drop_zero, List.filter_eq_self]
        intro item member
        rcases List.mem_cons.mp member with isFirst | later
        · rw [isFirst]
          exact decide_eq_true isBelow
        · exact decide_eq_true (lt_trans (ordered.1 item later) isBelow)
      · rcases ih ordered.2 with ⟨start, same⟩
        refine ⟨start + 1, ?_⟩
        rw [List.filter_cons_of_neg (by simpa using isBelow), same, List.drop_succ_cons]

theorem rank_lt_of_lt {first second : Nat} (before : first < second) {left right : α}
    (atFirst : items[first]? = some left) (atSecond : items[second]? = some right) : rank right < rank left := by
  rcases List.getElem?_eq_some_iff.mp atFirst with ⟨firstInside, rfl⟩
  rcases List.getElem?_eq_some_iff.mp atSecond with ⟨secondInside, rfl⟩
  exact List.pairwise_iff_getElem.mp ordered first second firstInside secondInside before

theorem below_of_separates {index : Nat} {anchor next : α} (atAnchor : items[index]? = some anchor)
    (atNext : items[index + 1]? = some next) (separates : Separates rank position mark anchor next) :
    below rank position items (some (mark anchor)) = items.drop (index + 1) := by
  have parts : below rank position items (some (mark anchor)) =
      (items.take (index + 1)).filter (fun item => decide (rank item < position (mark anchor))) ++
        (items.drop (index + 1)).filter (fun item => decide (rank item < position (mark anchor))) := by
    rw [below, ← List.filter_append, List.take_append_drop]
  have front : (items.take (index + 1)).filter (fun item => decide (rank item < position (mark anchor))) = [] := by
    rw [List.filter_eq_nil_iff]
    intro item member
    rcases List.mem_take_iff_getElem.mp member with ⟨place, inside, isItem⟩
    have inItems : place < items.length := lt_of_lt_of_le inside (Nat.min_le_right _ _)
    have atPlace : items[place]? = some item := by rw [List.getElem?_eq_getElem inItems, isItem]
    rw [decide_eq_true_eq, not_lt]
    have notBehind : place < index + 1 := lt_of_lt_of_le inside (Nat.min_le_left _ _)
    by_cases isAnchor : place = index
    · rw [isAnchor, atAnchor] at atPlace
      cases atPlace
      exact separates.1
    · exact le_trans separates.1 (le_of_lt (rank_lt_of_lt ordered (by omega) atPlace atAnchor))
  have back : (items.drop (index + 1)).filter (fun item => decide (rank item < position (mark anchor))) =
      items.drop (index + 1) := by
    rw [List.filter_eq_self]
    intro item member
    rcases List.mem_iff_getElem?.mp member with ⟨place, atPlace⟩
    rw [List.getElem?_drop] at atPlace
    rw [decide_eq_true_eq]
    by_cases isNext : place = 0
    · rw [isNext, Nat.add_zero, atNext] at atPlace
      cases atPlace
      exact separates.2
    · exact lt_trans (rank_lt_of_lt ordered (by omega) atNext atPlace) separates.2
  rw [parts, front, back, List.nil_append]

theorem separates_of_below {index : Nat} {anchor next : α} (atAnchor : items[index]? = some anchor)
    (atNext : items[index + 1]? = some next)
    (selects : below rank position items (some (mark anchor)) = items.drop (index + 1)) :
    Separates rank position mark anchor next := by
  constructor
  · by_contra above
    have member : anchor ∈ below rank position items (some (mark anchor)) := by
      rw [below, List.mem_filter]
      exact ⟨List.mem_of_getElem? atAnchor, decide_eq_true (not_le.mp above)⟩
    rw [selects] at member
    rcases List.mem_iff_getElem?.mp member with ⟨place, atPlace⟩
    rw [List.getElem?_drop] at atPlace
    exact absurd (rank_lt_of_lt ordered (by omega) atAnchor atPlace) (lt_irrefl _)
  · have member : next ∈ below rank position items (some (mark anchor)) := by
      rw [selects, List.mem_iff_getElem?]
      exact ⟨0, by rw [List.getElem?_drop, Nat.add_zero, atNext]⟩
    rw [below, List.mem_filter, decide_eq_true_eq] at member
    exact member.2

theorem follows_of_separates (positive : 1 ≤ size) (separates : SeparatesPages rank position mark size items)
    (selects : below rank position items cursor = items.drop (index * size)) :
    Follows (page rank position mark size items) cursor (items.drop (index * size)) := by
  induction remaining : (items.drop (index * size)).length using Nat.strong_induction_on
    generalizing index cursor with
  | h count ih =>
      by_cases short : (items.drop (index * size)).length ≤ size
      · have whole := page_last mark selects short
        have ends : (page rank position mark size items cursor).2 = none := by rw [whole]
        have follows := Follows.last ends
        rw [whole] at follows
        exact follows
      · rcases page_next mark positive selects (Nat.lt_of_not_le short) with
          ⟨anchor, next, atAnchor, atNext, whole⟩
        have goesOn : (page rank position mark size items cursor).2 = some (mark anchor) := by rw [whole]
        have product : (index + 1) * size = index * size + size := Nat.succ_mul index size
        have place : (index + 1) * size - 1 + 1 = (index + 1) * size := by omega
        have selectsNext : below rank position items (some (mark anchor)) = items.drop ((index + 1) * size) := by
          rw [← place]
          exact below_of_separates ordered atAnchor (by rw [place]; exact atNext)
            (separates index anchor next atAnchor atNext)
        have shorter : (items.drop ((index + 1) * size)).length < count := by
          rw [← remaining, List.length_drop, List.length_drop]
          rw [List.length_drop] at short
          omega
        have follows := Follows.next goesOn (ih _ shorter selectsNext rfl)
        rw [whole, drop_page, List.take_append_drop] at follows
        exact follows

/-- Items at two places of the list are different. -/
theorem index_eq {first second : Nat} {item : α} (atFirst : items[first]? = some item)
    (atSecond : items[second]? = some item) : first = second := by
  rcases Nat.lt_trichotomy first second with before | same | behind
  · exact absurd (rank_lt_of_lt ordered before atFirst atSecond) (lt_irrefl _)
  · exact same
  · exact absurd (rank_lt_of_lt ordered behind atSecond atFirst) (lt_irrefl _)

theorem selects_of_follows (positive : 1 ≤ size) {cursor : γ} {start : Nat} {next : α}
    (atNext : items[start]? = some next)
    (follows : Follows (page rank position mark size items) (some cursor) (items.drop start)) :
    below rank position items (some cursor) = items.drop start := by
  rcases below_eq_drop ordered cursor with ⟨other, selects⟩
  rw [selects]
  cases rows : items.drop other with
  | nil =>
      have isEmpty : page rank position mark size items (some cursor) = ([], none) := by
        rw [page, selects, rows]
        simp
      have visited := follows.eq_of_last (by rw [isEmpty])
      rw [visited, isEmpty]
  | cons first more =>
      rcases follows.first with ⟨rest, visited⟩
      have atOther : items[other]? = some first := by
        have head : (items.drop other)[0]? = some first := by rw [rows]; rfl
        rwa [List.getElem?_drop, Nat.add_zero] at head
      have firstPage : (page rank position mark size items (some cursor)).1 = (first :: more).take size := by
        rw [page, selects, rows]
      have atStart : items[start]? = some first := by
        have head : (items.drop start)[0]? = some first := by
          rw [visited, firstPage, List.getElem?_append_left (by simp; omega), List.getElem?_take, if_pos (Nat.lt_of_lt_of_le Nat.zero_lt_one positive)]
          rfl
        rwa [List.getElem?_drop, Nat.add_zero] at head
      rw [← rows, index_eq ordered atOther atStart]

theorem separates_of_follows (positive : 1 ≤ size) {visited : List α}
    (follows : Follows (page rank position mark size items) cursor visited)
    (selects : below rank position items cursor = items.drop (index * size))
    (whole : visited = items.drop (index * size)) {later : Nat} (behind : index ≤ later) {anchor next : α}
    (atAnchor : items[(later + 1) * size - 1]? = some anchor) (atNext : items[(later + 1) * size]? = some next) :
    Separates rank position mark anchor next := by
  have inside := (List.getElem?_eq_some_iff.mp atNext).1
  have reach : (index + 1) * size ≤ (later + 1) * size := Nat.mul_le_mul_right size (by omega)
  have product : (index + 1) * size = index * size + size := Nat.succ_mul index size
  have long : size < (items.drop (index * size)).length := by
    rw [List.length_drop]
    omega
  induction follows generalizing index with
  | last ends =>
      rcases page_next mark positive selects long with ⟨_, _, _, _, isPage⟩
      rw [isPage] at ends
      cases ends
  | @next _ _ restItems goesOn rest ih =>
      rcases page_next mark positive selects long with
        ⟨pageAnchor, pageNext, atPageAnchor, atPageNext, isPage⟩
      rw [isPage] at goesOn whole
      cases goesOn
      have remaining : restItems = items.drop ((index + 1) * size) := by
        have parts := whole.trans (List.take_append_drop size (items.drop (index * size))).symm
        rw [drop_page]
        exact List.append_cancel_left parts
      rw [remaining] at rest
      have selectsNext := selects_of_follows ordered positive atPageNext rest
      have place : (index + 1) * size - 1 + 1 = (index + 1) * size := by omega
      by_cases here : later = index
      · subst here
        rw [atPageAnchor] at atAnchor
        rw [atPageNext] at atNext
        cases atAnchor
        cases atNext
        exact separates_of_below ordered atPageAnchor (by rw [place]; exact atPageNext)
          (by rw [place]; exact selectsNext)
      · have further : index + 1 ≤ later := by omega
        have reachNext : (index + 1 + 1) * size ≤ (later + 1) * size := Nat.mul_le_mul_right size (by omega)
        have productNext : (index + 1 + 1) * size = (index + 1) * size + size := Nat.succ_mul (index + 1) size
        refine ih selectsNext remaining further reachNext productNext ?_
        rw [List.length_drop]
        omega

theorem follows_iff (positive : 1 ≤ size) :
    Follows (page rank position mark size items) none items ↔ SeparatesPages rank position mark size items := by
  have first : below rank position items none = items.drop (0 * size) := by rw [Nat.zero_mul]; rfl
  constructor
  · intro follows index anchor next atAnchor atNext
    exact separates_of_follows ordered positive follows first (by rw [Nat.zero_mul]; rfl) (Nat.zero_le index)
      atAnchor atNext
  · intro separates
    have follows := follows_of_separates ordered positive separates first
    rwa [Nat.zero_mul] at follows

end Suffixes

end Paging
end AIBuddy
