import AIBuddy.Support.Runs
import AIBuddy.Support.Tasks

namespace AIBuddy
namespace Gateway

/-!
# Pending pairing codes

The pending codes of all gateways are one list in the configuration.  To store a code and to
consume one, a call loads the list, changes its copy and saves that, and nothing keeps other
calls from doing the same in between.  A load and a save are taken to be one step each.
-/

/-- A pending code.  Its issue tells codes apart that are stored under one text. -/
structure StoredPendingCode where
  code : String
  gatewayType : String
  expiresAt : Int
  issue : Nat
deriving DecidableEq

/-- Replace the entries with this code by a new one. -/
def storeCode (entry : StoredPendingCode) (codes : List StoredPendingCode) : List StoredPendingCode :=
  (codes.filter fun other => other.code ≠ entry.code) ++ [entry]

/-- The first entry with a code, and the list without it. -/
def removeCode (code : String) (codes : List StoredPendingCode) : Option (StoredPendingCode × List StoredPendingCode) :=
  (codes.find? fun entry => entry.code = code).map fun entry =>
    (entry, codes.eraseP fun entry => entry.code = code)

/-- Where a call of `store_pending_code` stands. -/
inductive StorePhase where
  | started
  | loaded (codes : List StoredPendingCode)
  | stored
  | failed (error : String)
deriving DecidableEq

/-- Where a call of `consume_pending_code` stands.  It answers with the gateway of the entry
once that is paired, and with nothing when the entry is absent or expired. -/
inductive ConsumePhase where
  | started
  | loaded (codes : List StoredPendingCode)
  | removed (entry : StoredPendingCode)
  | expired (entry : StoredPendingCode) (now : Int)
  | paired (entry : StoredPendingCode)
  | absent
  | failed (error : String)
deriving DecidableEq

inductive Call where
  | store (entry : StoredPendingCode) (phase : StorePhase)
  | consume (code : String) (phase : ConsumePhase)
deriving DecidableEq

/-- What a save did. -/
inductive Event where
  | stored (entry : StoredPendingCode)
  | removed (entry : StoredPendingCode)
deriving DecidableEq

/-- The list in the configuration, the calls in the order in which they began, how many codes
were issued, and what was saved, the latest first. -/
structure PairingStore where
  codes : List StoredPendingCode
  calls : List Call
  issued : Nat
  log : List Event

inductive Step where
  | store (code gatewayType : String) (expiresAt : Int)
  | consume (code : String)
  | load (index : Nat)
  | save (index : Nat) (failure : Option String)
  | check (index : Nat) (now : Int)
deriving DecidableEq

namespace PairingStore

def advanceCall (store : PairingStore) (index : Nat) (call : Call) : PairingStore :=
  { store with calls := store.calls.set index call }

def load (store : PairingStore) (index : Nat) : Except Unit PairingStore :=
  match store.calls[index]? with
  | some (.store entry .started) => .ok (store.advanceCall index (.store entry (.loaded store.codes)))
  | some (.consume code .started) =>
      if (removeCode code store.codes).isSome then
        .ok (store.advanceCall index (.consume code (.loaded store.codes)))
      else .ok (store.advanceCall index (.consume code .absent))
  | _ => .error ()

def save (store : PairingStore) (index : Nat) (failure : Option String) : Except Unit PairingStore :=
  match store.calls[index]?, failure with
  | some (.store entry (.loaded codes)), none =>
      .ok { store.advanceCall index (.store entry .stored) with
        codes := storeCode entry codes
        log := .stored entry :: store.log }
  | some (.store entry (.loaded _)), some error => .ok (store.advanceCall index (.store entry (.failed error)))
  | some (.consume code (.loaded codes)), none =>
      match removeCode code codes with
      | some (entry, rest) =>
          .ok { store.advanceCall index (.consume code (.removed entry)) with
            codes := rest
            log := .removed entry :: store.log }
      | none => .error ()
  | some (.consume code (.loaded _)), some error => .ok (store.advanceCall index (.consume code (.failed error)))
  | _, _ => .error ()

/-- The time is looked at only after the entry is gone. -/
def check (store : PairingStore) (index : Nat) (now : Int) : Except Unit PairingStore :=
  match store.calls[index]? with
  | some (.consume code (.removed entry)) =>
      if now > entry.expiresAt then .ok (store.advanceCall index (.consume code (.expired entry now)))
      else .ok (store.advanceCall index (.consume code (.paired entry)))
  | _ => .error ()

def advance (step : Step) (store : PairingStore) : Except Unit PairingStore :=
  match step with
  | .store code gatewayType expiresAt => .ok { store with
      calls := store.calls ++ [.store ⟨code, gatewayType, expiresAt, store.issued⟩ .started]
      issued := store.issued + 1 }
  | .consume code => .ok { store with calls := store.calls ++ [.consume code .started] }
  | .load index => store.load index
  | .save index failure => store.save index failure
  | .check index now => store.check index now

/-- The list that a configuration begins with, each entry under an issue of its own. -/
def start (stored : List (String × String × Int)) : PairingStore where
  codes := stored.mapIdx fun index entry => ⟨entry.1, entry.2.1, entry.2.2, index⟩
  calls := []
  issued := stored.length
  log := []

end PairingStore

/-! ## What a call has of the codes -/

/-- The list that a call has loaded and not saved yet. -/
def Call.loaded? : Call -> Option (List StoredPendingCode)
  | .store _ (.loaded codes) => some codes
  | .consume _ (.loaded codes) => some codes
  | _ => none

/-- The entry that a call has taken out of the list. -/
def Call.taken? : Call -> Option StoredPendingCode
  | .consume _ (.removed entry) => some entry
  | .consume _ (.expired entry _) => some entry
  | .consume _ (.paired entry) => some entry
  | _ => none

/-- The issues that are with a call and not in the list: that of a code still to be stored, and
that of an entry that was taken out. -/
def Call.issues (call : Call) : List Nat :=
  match call with
  | .store entry .started => [entry.issue]
  | .store entry (.loaded _) => [entry.issue]
  | _ => (call.taken?.map StoredPendingCode.issue).toList

namespace PairingStore

/-! ## What a step does -/

/-- What a step does to the store.  Steps that save nothing keep the list, and what the call has
of it. -/
inductive Moves (store : PairingStore) : Step -> PairingStore -> Prop where
  | beginStore (code gatewayType : String) (expiresAt : Int) :
      Moves store (.store code gatewayType expiresAt) { store with
        calls := store.calls ++ [.store ⟨code, gatewayType, expiresAt, store.issued⟩ .started]
        issued := store.issued + 1 }
  | beginConsume (code : String) :
      Moves store (.consume code) { store with calls := store.calls ++ [.consume code .started] }
  | quiet {step : Step} {index : Nat} {call next : Call} (found : store.calls[index]? = some call)
      (holds : next.issues.Sublist call.issues) (takes : next.taken? = call.taken?)
      (unstored : forall entry, call ≠ .store entry .stored ∧ next ≠ .store entry .stored)
      (late : forall code entry now, next = .consume code (.expired entry now) -> entry.expiresAt < now) :
      Moves store step (store.advanceCall index next)
  | saveStore {index : Nat} {entry : StoredPendingCode} {codes : List StoredPendingCode}
      (found : store.calls[index]? = some (.store entry (.loaded codes))) :
      Moves store (.save index none) { store.advanceCall index (.store entry .stored) with
        codes := storeCode entry codes
        log := .stored entry :: store.log }
  | saveConsume {index : Nat} {code : String} {codes rest : List StoredPendingCode} {entry : StoredPendingCode}
      (found : store.calls[index]? = some (.consume code (.loaded codes)))
      (removed : removeCode code codes = some (entry, rest)) :
      Moves store (.save index none) { store.advanceCall index (.consume code (.removed entry)) with
        codes := rest
        log := .removed entry :: store.log }

theorem moves_of_advance {step : Step} {store next : PairingStore} (moved : advance step store = .ok next) :
    Moves store step next := by
  cases step with
  | store code gatewayType expiresAt =>
      cases moved
      exact .beginStore code gatewayType expiresAt
  | consume code =>
      cases moved
      exact .beginConsume code
  | load index =>
      rw [advance, load] at moved
      split at moved
      · rename_i entry found
        cases moved
        exact .quiet found (List.Sublist.refl _) rfl (by simp) (by simp)
      · rename_i code found
        split at moved
        · cases moved
          exact .quiet found (List.Sublist.refl _) rfl (by simp) (by simp)
        · cases moved
          exact .quiet found (List.Sublist.refl _) rfl (by simp) (by simp)
      · cases moved
  | save index failure =>
      rw [advance] at moved
      unfold save at moved
      split at moved
      · rename_i entry codes found
        cases moved
        exact .saveStore found
      · rename_i entry codes error found
        cases moved
        exact .quiet found (List.nil_sublist _) rfl (by simp) (by simp)
      · rename_i code codes found
        split at moved
        · rename_i entry rest removed
          cases moved
          exact .saveConsume found removed
        · cases moved
      · rename_i code codes error found
        cases moved
        exact .quiet found (List.Sublist.refl _) rfl (by simp) (by simp)
      · cases moved
  | check index now =>
      rw [advance, check] at moved
      split at moved
      · rename_i code entry found
        split at moved
        · rename_i late
          cases moved
          refine .quiet found (List.Sublist.refl _) rfl (by simp) ?_
          intro other sameEntry sameNow same
          cases same
          exact late
        · cases moved
          exact .quiet found (List.Sublist.refl _) rfl (by simp) (by simp)
      · cases moved

/-! ## One save after another -/

/-- The list that saves one after another make of the first one, the latest save first. -/
def replay (first : List StoredPendingCode) : List Event -> List StoredPendingCode
  | [] => first
  | .stored entry :: earlier => storeCode entry (replay first earlier)
  | .removed entry :: earlier => (replay first earlier).eraseP fun other => other.code = entry.code

/-- Every entry that was removed was the first one with its code. -/
def Valid (first : List StoredPendingCode) : List Event -> Prop
  | [] => True
  | .stored _ :: earlier => Valid first earlier
  | .removed entry :: earlier =>
      ((replay first earlier).find? fun other => other.code = entry.code) = some entry ∧ Valid first earlier

/-- A call finds the entry if it looks for its code now. -/
def Consumable (codes : List StoredPendingCode) (entry : StoredPendingCode) : Prop :=
  (codes.find? fun other => other.code = entry.code) = some entry

theorem consumable_storeCode (entry : StoredPendingCode) (codes : List StoredPendingCode) :
    Consumable (storeCode entry codes) entry := by
  have gone : ((codes.filter fun other => other.code ≠ entry.code).find? fun other => other.code = entry.code) = none := by
    rw [List.find?_eq_none]
    intro other member
    simpa using List.of_mem_filter member
  rw [Consumable, storeCode, List.find?_append, gone, Option.none_or, List.find?_singleton]
  simp

theorem Consumable.storeCode {codes : List StoredPendingCode} {entry other : StoredPendingCode}
    (consumable : Consumable codes entry) (different : other.code ≠ entry.code) :
    Consumable (storeCode other codes) entry := by
  have kept : ((codes.filter fun present => present.code ≠ other.code).find? fun present => present.code = entry.code) =
      some entry := by
    rw [List.find?_filter, ← consumable]
    congr 1
    funext present
    by_cases same : present.code = entry.code <;> simp [same, Ne.symm different]
  rw [Consumable, Gateway.storeCode, List.find?_append, kept, Option.some_or]

theorem Consumable.eraseP {codes : List StoredPendingCode} {entry other : StoredPendingCode}
    (consumable : Consumable codes entry) (different : other.code ≠ entry.code) :
    Consumable (codes.eraseP fun present => present.code = other.code) entry := by
  rw [Consumable] at consumable ⊢
  induction codes with
  | nil => cases consumable
  | cons present codes ih =>
      rw [List.eraseP_cons]
      by_cases named : present.code = other.code
      · rw [List.find?_cons_of_neg (by simp [named, different])] at consumable
        simp only [named, decide_true, cond_true, consumable]
      · simp only [named, decide_false, cond_false]
        by_cases same : present.code = entry.code
        · rw [List.find?_cons_of_pos (by simp [same])] at consumable ⊢
          exact consumable
        · rw [List.find?_cons_of_neg (by simp [same])] at consumable ⊢
          exact ih consumable

theorem consumable_replay {first : List StoredPendingCode} {later earlier : List Event} {entry : StoredPendingCode}
    (valid : Valid first (later ++ .stored entry :: earlier)) :
    Consumable (replay first (later ++ .stored entry :: earlier)) entry ∨ .removed entry ∈ later ∨
      Exists fun other => .stored other ∈ later ∧ other.code = entry.code := by
  induction later with
  | nil => exact Or.inl (consumable_storeCode entry _)
  | cons event later ih =>
      cases event with
      | stored other =>
          rcases ih valid with consumable | removed | ⟨again, stored, same⟩
          · by_cases same : other.code = entry.code
            · exact Or.inr (Or.inr ⟨other, List.mem_cons_self, same⟩)
            · exact Or.inl (consumable.storeCode same)
          · exact Or.inr (Or.inl (List.mem_cons_of_mem _ removed))
          · exact Or.inr (Or.inr ⟨again, List.mem_cons_of_mem _ stored, same⟩)
      | removed other =>
          rcases ih valid.2 with consumable | removed | ⟨again, stored, same⟩
          · by_cases same : other.code = entry.code
            · have found : Consumable (replay first (later ++ .stored entry :: earlier)) other := valid.1
              rw [Consumable, same, consumable, Option.some.injEq] at found
              rw [found]
              exact Or.inr (Or.inl List.mem_cons_self)
            · exact Or.inl (consumable.eraseP same)
          · exact Or.inr (Or.inl (List.mem_cons_of_mem _ removed))
          · exact Or.inr (Or.inr ⟨again, List.mem_cons_of_mem _ stored, same⟩)

end PairingStore
end Gateway
end AIBuddy
