import Mathlib.Data.List.Induction
import Mosaic.Catalog.Basic
import Mosaic.Proofs.Order
import Mosaic.Proofs.SortedMap
import Mosaic.Scalar.Exact

/-!
# The history of a catalog

A catalog is what the calls to it have made of a new one. Calls that it refuses leave no trace, and
every other call makes at most one change to one of its two maps, so after a whole history each map is
the replay of its own changes (`Catalog.foldl_after`). Under a key a replay has what the last change
to that key has left (`SortedMap.find?_replay`), which does not depend on the changes to other keys
(`SortedMap.replay_eq_of_changesTo`). This says what a catalog answers, online or offline, and that
records with distinct identifiers may be added in any order (`Catalog.run_reflects`).
-/

namespace Mosaic

open Std (TransOrd LawfulEqOrd)

/-! ## The replay of changes to a map -/

namespace SortedMap

variable {α β : Type} [Ord α]

/-- What a map has become after some changes. Each gives a key a value or takes it away. -/
def replay (m : SortedMap α β) (changes : List (α × Option β)) : SortedMap α β :=
  changes.foldl (fun m change => m.alter change.1 fun _ => change.2) m

omit [Ord α] in
/-- The last of the changes to a key gives it a value. -/
def LastGives (changes : List (α × Option β)) (key : α) (value : β) : Prop :=
  ∃ before later, changes = before ++ (key, some value) :: later ∧
    ∀ change ∈ later, change.1 ≠ key

theorem replay_append (m : SortedMap α β) (changes later : List (α × Option β)) :
    m.replay (changes ++ later) = (m.replay changes).replay later := List.foldl_append

omit [Ord α] in
theorem lastGives_concat {changes : List (α × Option β)} {change : α × Option β} {key : α}
    {value : β} : LastGives (changes ++ [change]) key value ↔
      change = (key, some value) ∨ change.1 ≠ key ∧ LastGives changes key value := by
  constructor
  · rintro ⟨before, later, heq, hlater⟩
    rcases List.eq_nil_or_concat later with rfl | ⟨later, last, rfl⟩
    · exact .inl (List.singleton_inj.mp (List.append_inj_right' heq rfl))
    · rw [List.concat_eq_append, ← List.cons_append, ← List.append_assoc] at heq
      obtain ⟨rfl, hlast⟩ := List.append_inj' heq rfl
      cases hlast
      refine .inr ⟨hlater change (by simp), before, later, rfl, ?_⟩
      intro other hother
      exact hlater other (by simp [hother])
  · rintro (rfl | ⟨hne, before, later, rfl, hlater⟩)
    · exact ⟨changes, [], rfl, nofun⟩
    · refine ⟨before, later ++ [change], by simp, ?_⟩
      intro other hother
      rcases List.mem_append.mp hother with hother | hother
      · exact hlater other hother
      · rwa [List.mem_singleton.mp hother]

omit [Ord α] in
/-- What is done to one key. -/
def changesTo [DecidableEq α] (key : α) (changes : List (α × Option β)) : List (α × Option β) :=
  changes.filter fun change => change.1 = key

omit [Ord α] in
theorem lastGives_changesTo [DecidableEq α] {changes : List (α × Option β)} {key : α} {value : β} :
    LastGives (changesTo key changes) key value ↔ LastGives changes key value := by
  induction changes using List.reverseRecOn with
  | nil => rfl
  | append_singleton changes change ih =>
    rw [lastGives_concat, ← ih]
    unfold changesTo
    rw [List.filter_append, List.filter_singleton]
    by_cases hkey : change.1 = key
    · simp [hkey, lastGives_concat]
    · have hother : change ≠ (key, some value) := fun heq => hkey (heq ▸ rfl)
      simp [hkey, hother]

omit [Ord α] in
/-- In whatever order different keys are changed, the same is done to each. -/
theorem changesTo_of_perm [DecidableEq α] {changes changes' : List (α × Option β)}
    (hperm : changes.Perm changes') (hkeys : (changes.map Prod.fst).Nodup) (key : α) :
    changesTo key changes = changesTo key changes' := by
  have hpairwise : changes.Pairwise fun a b => a.1 ≠ b.1 := List.pairwise_map.mp hkeys
  have hpairwise' : changes'.Pairwise fun a b => a.1 ≠ b.1 :=
    (List.Perm.pairwise_iff (fun hab => Ne.symm hab) hperm).mp hpairwise
  refine (hperm.filter _).eq_of_pairwise ?_ (hpairwise.filter _) (hpairwise'.filter _)
  intro a b ha hb hne _
  have ha : a.1 = key := by simpa using (List.mem_filter.mp ha).2
  have hb : b.1 = key := by simpa using (List.mem_filter.mp hb).2
  exact absurd (ha.trans hb.symm) hne

variable [TransOrd α] [LawfulEqOrd α]

theorem sorted_replay {m : SortedMap α β} (h : m.Sorted) (changes : List (α × Option β)) :
    (m.replay changes).Sorted := by
  induction changes generalizing m with
  | nil => exact h
  | cons change later ih => exact ih (sorted_alter h change.1 _)

/-- A key has the value that the last change to it gave it. -/
theorem find?_replay (changes : List (α × Option β)) (key : α) (value : β) :
    ((∅ : SortedMap α β).replay changes).find? key = some value ↔ LastGives changes key value := by
  induction changes using List.reverseRecOn with
  | nil =>
    refine iff_of_false nofun ?_
    rintro ⟨before, later, h, -⟩
    exact absurd h.symm (by simp)
  | append_singleton changes change ih =>
    rw [replay_append, lastGives_concat, ← ih]
    have hsorted : ((∅ : SortedMap α β).replay changes).Sorted := sorted_replay sorted_empty changes
    obtain ⟨changed, left⟩ := change
    show (( _ : SortedMap α β).alter changed fun _ => left).find? key = some value ↔ _
    by_cases hkey : changed = key
    · subst hkey
      rw [find?_alter_self hsorted]
      simp
    · rw [find?_alter_of_ne _ (Ne.symm hkey)]
      simp [hkey]

/-- Maps to each key of which the same changes are made are the same map. -/
theorem replay_eq_of_changesTo [DecidableEq α] {changes changes' : List (α × Option β)}
    (h : ∀ key, changesTo key changes = changesTo key changes') :
    (∅ : SortedMap α β).replay changes = (∅ : SortedMap α β).replay changes' := by
  refine eq_of_find? (sorted_replay sorted_empty changes) (sorted_replay sorted_empty changes') ?_
  intro key
  refine Option.ext fun value => ?_
  rw [find?_replay, find?_replay, ← lastGives_changesTo, h key, lastGives_changesTo]

end SortedMap

/-! ## The order of search results -/

namespace DatasetRecord

variable {K : Type}

/-- Whether a record comes before another one: it has no time and the other one has, its time begins
earlier, or there is no such difference and its identifier is smaller. -/
def Precedes (a b : DatasetRecord K) : Prop :=
  match a.time, b.time with
  | none, some _ => True
  | some _, none => False
  | none, none => compare a.id b.id = .lt
  | some s, some t => s.first < t.first ∨ s.first = t.first ∧ compare a.id b.id = .lt

theorem compareOption_eq (a b : Option Instant) : compareOption a b = compare a b := by
  cases a <;> cases b <;> rfl

instance : Std.TransCmp (cmp (K := K)) := by
  have hcmp : cmp (K := K) = compareLex (compareOn fun r => r.time.map TimeSpan.first)
      (compareOn DatasetRecord.id) := by
    funext a b
    exact congrArg (·.then (compare a.id b.id)) (compareOption_eq _ _)
  rw [hcmp]
  infer_instance

theorem cmp_eq_lt_iff (a b : DatasetRecord K) : a.cmp b = .lt ↔ a.Precedes b := by
  unfold cmp Precedes
  cases a.time with
  | none => cases b.time <;> simp [compareOption]
  | some s =>
    cases b.time with
    | none => simp [compareOption]
    | some t =>
      show (compare s.first t.first).then (compare a.id b.id) = .lt ↔ _
      rw [Ordering.then_eq_lt, Std.LawfulEqOrd.compare_eq_iff_eq]
      rfl

end DatasetRecord

/-! ## Histories -/

namespace Catalog

variable {K V : Type}

/-- A call that may change a catalog. -/
inductive Call (K V : Type) where
  | addProduct (p : Product K V)
  | addRecord (r : DatasetRecord K)
  | removeRecord (id : DatasetId)
  | setOnline (isOnline : Bool)

/-- The catalog after a call; the one before where the call fails. -/
def after (c : Catalog K V) : Call K V → Catalog K V
  | .addProduct p => (c.addProduct p).toOption.getD c
  | .addRecord r => (c.addRecord r).toOption.getD c
  | .removeRecord id => c.removeRecord id
  | .setOnline isOnline => c.setOnline isOnline

/-- A new catalog after some calls. -/
def run (calls : List (Call K V)) : Catalog K V := calls.foldl after {}

namespace Call

def onlineAfter (isOnline : Bool) : Call K V → Bool
  | setOnline isOnline => isOnline
  | _ => isOnline

/-- Whether a catalog carries a call out. Only additions need it online. -/
def isCarriedOut (isOnline : Bool) : Call K V → Bool
  | addProduct _ | addRecord _ => isOnline
  | removeRecord _ | setOnline _ => true

def productChange? : Call K V → Option (String × Option (Product K V))
  | addProduct p => some (p.name, some p)
  | _ => none

def recordChange? : Call K V → Option (DatasetId × Option (DatasetRecord K))
  | addRecord r => some (r.id, some r)
  | removeRecord id => some (id, none)
  | _ => none

/-- Whether a new catalog is online after some calls: as the last one to switch it said. -/
def isOnlineAfter (calls : List (Call K V)) : Bool := calls.foldl onlineAfter true

/-- The calls that a catalog carries out. -/
def carriedOut (isOnline : Bool) : List (Call K V) → List (Call K V)
  | [] => []
  | call :: later =>
    let rest := carriedOut (call.onlineAfter isOnline) later
    if call.isCarriedOut isOnline then call :: rest else rest

/-- What calls to a new catalog change about the definitions of products. -/
def productChanges (calls : List (Call K V)) : List (String × Option (Product K V)) :=
  (carriedOut true calls).filterMap productChange?

/-- What calls to a new catalog change about the records. -/
def recordChanges (calls : List (Call K V)) : List (DatasetId × Option (DatasetRecord K)) :=
  (carriedOut true calls).filterMap recordChange?

/-- The latest definition of its name. -/
def Defines (calls : List (Call K V)) (p : Product K V) : Prop :=
  SortedMap.LastGives (productChanges calls) p.name p

/-- The record of its identifier that was added last and not removed since. -/
def Keeps (calls : List (Call K V)) (r : DatasetRecord K) : Prop :=
  SortedMap.LastGives (recordChanges calls) r.id r

theorem carriedOut_append (isOnline : Bool) (calls later : List (Call K V)) :
    carriedOut isOnline (calls ++ later) =
      carriedOut isOnline calls ++ carriedOut (calls.foldl onlineAfter isOnline) later := by
  induction calls generalizing isOnline with
  | nil => rfl
  | cons call calls ih =>
    simp only [List.cons_append, carriedOut, List.foldl_cons, ih]
    split <;> rfl

/-- Additions leave a catalog online or offline. -/
theorem foldl_onlineAfter_addRecord (isOnline : Bool) (records : List (DatasetRecord K)) :
    (records.map (addRecord (V := V))).foldl onlineAfter isOnline = isOnline := by
  induction records with
  | nil => rfl
  | cons r rest ih => exact ih

/-- Products are put in by their names. -/
theorem name_of_lastGives {calls : List (Call K V)} {name : String} {p : Product K V}
    (h : SortedMap.LastGives (productChanges calls) name p) : p.name = name := by
  obtain ⟨before, later, heq, -⟩ := h
  have hmem : (name, some p) ∈ productChanges calls := by simp [heq]
  obtain ⟨call, -, hcall⟩ := List.mem_filterMap.mp hmem
  cases call <;> cases hcall
  rfl

/-- Records are put in by their identifiers. -/
theorem id_of_lastGives {calls : List (Call K V)} {id : DatasetId} {r : DatasetRecord K}
    (h : SortedMap.LastGives (recordChanges calls) id r) : r.id = id := by
  obtain ⟨before, later, heq, -⟩ := h
  have hmem : (id, some r) ∈ recordChanges calls := by simp [heq]
  obtain ⟨call, -, hcall⟩ := List.mem_filterMap.mp hmem
  cases call <;> cases hcall
  rfl

end Call

open Call

/-- What one call does: it may switch the catalog and replays its change, if it is carried out. -/
theorem after_eq (c : Catalog K V) (call : Call K V) :
    c.after call =
      { products := c.products.replay ((carriedOut c.isOnline [call]).filterMap productChange?)
        records := c.records.replay ((carriedOut c.isOnline [call]).filterMap recordChange?)
        isOnline := call.onlineAfter c.isOnline } := by
  obtain ⟨products, records, isOnline⟩ := c
  cases call with
  | addProduct p => cases isOnline <;> rfl
  | addRecord r => cases isOnline <;> rfl
  | removeRecord id => rfl
  | setOnline isOnline => rfl

/-- What a history does: it may switch the catalog and replays the changes of the calls that are
carried out. -/
theorem foldl_after (c : Catalog K V) (calls : List (Call K V)) :
    calls.foldl after c =
      { products := c.products.replay ((carriedOut c.isOnline calls).filterMap productChange?)
        records := c.records.replay ((carriedOut c.isOnline calls).filterMap recordChange?)
        isOnline := calls.foldl onlineAfter c.isOnline } := by
  induction calls generalizing c with
  | nil => rfl
  | cons call later ih =>
    have hcons : carriedOut c.isOnline (call :: later) = _ :=
      carriedOut_append c.isOnline [call] later
    rw [List.foldl_cons, ih, after_eq, hcons, List.filterMap_append, List.filterMap_append,
      SortedMap.replay_append, SortedMap.replay_append]
    rfl

theorem isOnline_run (calls : List (Call K V)) :
    (run calls : Catalog K V).isOnline = isOnlineAfter calls := by
  rw [run, foldl_after]
  rfl

theorem find?_products_run (calls : List (Call K V)) (name : String) (p : Product K V) :
    (run calls).products.find? name = some p ↔ Defines calls p ∧ p.name = name := by
  rw [run, foldl_after]
  show (SortedMap.replay ∅ (productChanges calls)).find? name = some p ↔ _
  rw [SortedMap.find?_replay]
  constructor
  · intro h
    obtain rfl := name_of_lastGives h
    exact ⟨h, rfl⟩
  · rintro ⟨h, rfl⟩
    exact h

theorem find?_records_run (calls : List (Call K V)) (id : DatasetId) (r : DatasetRecord K) :
    (run calls : Catalog K V).records.find? id = some r ↔ Keeps calls r ∧ r.id = id := by
  rw [run, foldl_after]
  show (SortedMap.replay ∅ (recordChanges calls)).find? id = some r ↔ _
  rw [SortedMap.find?_replay]
  constructor
  · intro h
    obtain rfl := id_of_lastGives h
    exact ⟨h, rfl⟩
  · rintro ⟨h, rfl⟩
    exact h

theorem sorted_products_run (calls : List (Call K V)) :
    (run calls : Catalog K V).products.Sorted := by
  rw [run, foldl_after]
  exact SortedMap.sorted_replay SortedMap.sorted_empty _

theorem sorted_records_run (calls : List (Call K V)) :
    (run calls : Catalog K V).records.Sorted := by
  rw [run, foldl_after]
  exact SortedMap.sorted_replay SortedMap.sorted_empty _

/-! ## What a catalog answers -/

/-- A catalog refuses every question and every addition, and no addition leaves a trace. -/
structure Refuses [Coordinate K] (c : Catalog K V) : Prop where
  search (q : DatasetQuery K) : c.search q = .error (.unavailable "in-memory catalog is offline")
  product (name : String) : c.product name = .error (.unavailable "in-memory catalog is offline")
  listProducts : c.listProducts = .error (.unavailable "in-memory catalog is offline")
  addProduct (p : Product K V) :
    c.addProduct p = .error (.unavailable "in-memory catalog is offline") ∧
      c.after (.addProduct p) = c
  addRecord (r : DatasetRecord K) :
    c.addRecord r = .error (.unavailable "in-memory catalog is offline") ∧
      c.after (.addRecord r) = c

/-- A catalog answers by what calls have put into it: a search by the records kept that match, in
strict order, and the other questions by the latest definitions, in the order of their names. -/
structure Reflects [Coordinate K] (c : Catalog K V) (calls : List (Call K V)) : Prop where
  search (q : DatasetQuery K) : ∃ records, c.search q = .ok records ∧
    (∀ r, r ∈ records ↔ Keeps calls r ∧ q.finds r = true) ∧
      records.Pairwise DatasetRecord.Precedes
  product (name : String) :
    (∀ p, c.product name = .ok p ↔ Defines calls p ∧ p.name = name) ∧
      ((∀ p, Defines calls p → p.name ≠ name) → c.product name = .error (.productNotFound name))
  listProducts : ∃ products, c.listProducts = .ok products ∧
    (∀ p, p ∈ products ↔ Defines calls p) ∧
      products.Pairwise fun a b => compare a.name b.name = .lt

theorem whileOnline_of_offline {c : Catalog K V} (h : c.isOnline = false) {α : Type}
    (answer : Except CatalogError α) :
    c.whileOnline answer = .error (.unavailable "in-memory catalog is offline") :=
  if_neg (Bool.eq_false_iff.mp h)

theorem refuses_of_offline [Coordinate K] {c : Catalog K V} (h : c.isOnline = false) :
    c.Refuses where
  search _ := whileOnline_of_offline h _
  product _ := whileOnline_of_offline h _
  listProducts := whileOnline_of_offline h _
  addProduct p := by
    have hadd : c.addProduct p = .error (.unavailable "in-memory catalog is offline") :=
      whileOnline_of_offline h _
    exact ⟨hadd, by rw [after, hadd]; rfl⟩
  addRecord r := by
    have hadd : c.addRecord r = .error (.unavailable "in-memory catalog is offline") :=
      whileOnline_of_offline h _
    exact ⟨hadd, by rw [after, hadd]; rfl⟩

/-- The records of a catalog ascend by their identifiers. -/
theorem pairwise_records_run (calls : List (Call K V)) :
    (run calls : Catalog K V).records.values.Pairwise fun a b => compare a.id b.id = .lt := by
  refine (sorted_records_run calls).pairwise_values fun id r hfind => ?_
  exact ((find?_records_run calls id r).mp hfind).2

theorem pairwise_products_run (calls : List (Call K V)) :
    (run calls : Catalog K V).products.values.Pairwise fun a b => compare a.name b.name = .lt := by
  refine (sorted_products_run calls).pairwise_values fun name p hfind => ?_
  exact ((find?_products_run calls name p).mp hfind).2

theorem mem_found [Coordinate K] {c : Catalog K V} {q : DatasetQuery K} {r : DatasetRecord K} :
    r ∈ c.found q ↔ r ∈ c.records.values ∧ q.finds r = true :=
  (List.mergeSort_perm _ _).mem_iff.trans List.mem_filter

/-- What a catalog finds comes in strict order when its records differ in their identifiers. -/
theorem pairwise_found [Coordinate K] {c : Catalog K V}
    (h : c.records.values.Pairwise fun a b => a.id ≠ b.id) (q : DatasetQuery K) :
    (c.found q).Pairwise fun a b => a.cmp b = .lt := by
  refine pairwise_lt_mergeSort ((h.filter _).imp ?_)
  intro a b hid heq
  exact hid (LawfulEqOrd.eq_of_compare (Ordering.then_eq_eq.mp heq).2)

theorem reflects_of_online [Coordinate K] {calls : List (Call K V)}
    (h : isOnlineAfter calls = true) : (run calls).Reflects calls := by
  have honline : (run calls : Catalog K V).isOnline = true := (isOnline_run calls).trans h
  refine ⟨fun q => ⟨(run calls).found q, if_pos honline, fun r => ?_, ?_⟩, fun name => ?_,
    ⟨(run calls).products.values, if_pos honline, fun p => ?_, pairwise_products_run calls⟩⟩
  · rw [mem_found, SortedMap.mem_values_iff (sorted_records_run calls)]
    simp only [find?_records_run, exists_and_left, exists_eq', and_true]
  · have hids : (run calls : Catalog K V).records.values.Pairwise fun a b => a.id ≠ b.id :=
      (pairwise_records_run calls).imp fun hlt heq => by simp [heq] at hlt
    exact (pairwise_found hids q).imp fun {a b} hlt => (a.cmp_eq_lt_iff b).mp hlt
  · unfold Catalog.product whileOnline
    rw [if_pos honline]
    cases hfind : (run calls : Catalog K V).products.find? name with
    | some p =>
      have hp := (find?_products_run calls name p).mp hfind
      refine ⟨fun p' => ?_, fun hnone => absurd hp.2 (hnone p hp.1)⟩
      rw [← find?_products_run, hfind]
      simp
    | none =>
      refine ⟨fun p => ?_, fun _ => rfl⟩
      rw [← find?_products_run, hfind]
      simp
  · rw [SortedMap.mem_values_iff (sorted_products_run calls)]
    simp only [find?_products_run, exists_and_left, exists_eq', and_true]

/-! ## The order of additions -/

/-- A catalog depends on its history only by what was done to each product and to each record, and by
the last call to switch it. -/
theorem run_eq_of_changesTo {calls calls' : List (Call K V)}
    (honline : isOnlineAfter calls = isOnlineAfter calls')
    (hproducts : ∀ name, SortedMap.changesTo name (productChanges calls) =
      SortedMap.changesTo name (productChanges calls'))
    (hrecords : ∀ id, SortedMap.changesTo id (recordChanges calls) =
      SortedMap.changesTo id (recordChanges calls')) :
    (run calls : Catalog K V) = run calls' := by
  unfold run
  rw [foldl_after, foldl_after]
  exact congr (congrArg₂ Catalog.mk (SortedMap.replay_eq_of_changesTo hproducts)
    (SortedMap.replay_eq_of_changesTo hrecords)) honline

/-- Of additions, a catalog carries out all or none. -/
theorem Call.carriedOut_addRecord (isOnline : Bool) (records : List (DatasetRecord K)) :
    carriedOut isOnline (records.map (addRecord (V := V))) =
      if isOnline then records.map addRecord else [] := by
  induction records with
  | nil => cases isOnline <;> rfl
  | cons r rest ih =>
    rw [List.map_cons, carriedOut, show onlineAfter _ _ = isOnline from rfl, ih]
    cases isOnline <;> rfl

theorem Call.isOnlineAfter_additions (before later : List (Call K V))
    (records : List (DatasetRecord K)) :
    isOnlineAfter (before ++ records.map addRecord ++ later) =
      later.foldl onlineAfter (isOnlineAfter before) := by
  unfold isOnlineAfter
  rw [List.foldl_append, List.foldl_append, foldl_onlineAfter_addRecord]

/-- What is changed by a history with additions in the middle. -/
theorem Call.filterMap_additions {γ : Type} (change? : Call K V → Option γ)
    (before later : List (Call K V)) (records : List (DatasetRecord K)) :
    (carriedOut true (before ++ records.map addRecord ++ later)).filterMap change? =
      (carriedOut true before).filterMap change? ++
        (if isOnlineAfter before then (records.map addRecord).filterMap change? else []) ++
          (carriedOut (isOnlineAfter before) later).filterMap change? := by
  have honline : (before ++ records.map addRecord).foldl onlineAfter true =
      isOnlineAfter before := by
    rw [List.foldl_append, foldl_onlineAfter_addRecord]
    rfl
  rw [carriedOut_append, carriedOut_append, honline, List.filterMap_append, List.filterMap_append]
  show _ ++ (carriedOut (isOnlineAfter before) _).filterMap change? ++ _ = _
  rw [carriedOut_addRecord]
  split <;> rfl

theorem Call.filterMap_productChange? (records : List (DatasetRecord K)) :
    (records.map (addRecord (V := V))).filterMap productChange? = [] := by
  simp [productChange?]

theorem Call.filterMap_recordChange? (records : List (DatasetRecord K)) :
    (records.map (addRecord (V := V))).filterMap recordChange? =
      records.map fun r => (r.id, some r) := by
  simp [recordChange?, Function.comp_def]

/-- Records with distinct identifiers may be added in any order. -/
theorem run_of_perm {records records' : List (DatasetRecord K)} (hperm : records.Perm records')
    (hids : (records.map DatasetRecord.id).Nodup) (before later : List (Call K V)) :
    (run (before ++ records.map .addRecord ++ later) : Catalog K V) =
      run (before ++ records'.map .addRecord ++ later) := by
  apply run_eq_of_changesTo
  · rw [isOnlineAfter_additions, isOnlineAfter_additions]
  · intro name
    unfold productChanges
    rw [filterMap_additions, filterMap_additions, filterMap_productChange?,
      filterMap_productChange?]
  · intro id
    unfold recordChanges SortedMap.changesTo
    rw [filterMap_additions, filterMap_additions, filterMap_recordChange?, filterMap_recordChange?]
    simp only [List.filter_append]
    congr 2
    split
    · refine SortedMap.changesTo_of_perm (hperm.map _) ?_ id
      rwa [List.map_map]
    · rfl

/-- What a catalog is after any history. While it is offline it refuses whatever it is asked and
keeps what it holds. While it is online a search finds the records that match, each the one of its
identifier that was added last and not removed, in strict order, and the products are the latest
definitions of their names. Two histories that do the same to each name and to each identifier give
the same catalog, so records with distinct identifiers may be added in any order. -/
theorem run_reflects [Coordinate K] (calls : List (Call K V)) :
    (isOnlineAfter calls = false → (run calls : Catalog K V).Refuses) ∧
    (isOnlineAfter calls = true → (run calls : Catalog K V).Reflects calls) ∧
    (∀ calls' : List (Call K V), isOnlineAfter calls = isOnlineAfter calls' →
      (∀ name, SortedMap.changesTo name (productChanges calls) =
        SortedMap.changesTo name (productChanges calls')) →
      (∀ id, SortedMap.changesTo id (recordChanges calls) =
        SortedMap.changesTo id (recordChanges calls')) →
      (run calls : Catalog K V) = run calls') ∧
    ∀ records records' : List (DatasetRecord K), records.Perm records' →
      (records.map DatasetRecord.id).Nodup → ∀ later : List (Call K V),
        (run (calls ++ records.map .addRecord ++ later) : Catalog K V) =
          run (calls ++ records'.map .addRecord ++ later) := by
  refine ⟨fun h => ?_, reflects_of_online, fun calls' => run_eq_of_changesTo, ?_⟩
  · exact refuses_of_offline ((isOnline_run calls).trans h)
  · intro records records' hperm hids later
    exact run_of_perm hperm hids calls later

section Example

/-- A record of scenes without columns or with a time. -/
def recordOfTime (number : BitVec 128) (time : Option TimeSpan) : DatasetRecord Rat :=
  ⟨⟨number⟩, "scenes", time, none, .null⟩

/-- A first scene, a second one that is replaced, and a third one that comes during an outage. -/
def historyWithOutage : List (Call Rat Float32) :=
  [.addRecord (recordOfTime 2 (some (.instant ⟨9, 0⟩))), .addRecord (recordOfTime 1 none),
    .addRecord (recordOfTime 2 (some (.instant ⟨5, 0⟩))), .setOnline false,
    .addRecord (recordOfTime 3 none), .setOnline true]

/-- After the outage a search finds the first scene and the replacement of the second, in whatever
order these two were added. During the outage it is refused. -/
theorem run_reflects_outage :
    (run (historyWithOutage.take 4)).Refuses ∧
    ∃ found, (run historyWithOutage).search ⟨"scenes", none, none⟩ = .ok found ∧
      recordOfTime 1 none ∈ found ∧ recordOfTime 2 (some (.instant ⟨5, 0⟩)) ∈ found ∧
      recordOfTime 2 (some (.instant ⟨9, 0⟩)) ∉ found ∧ recordOfTime 3 none ∉ found ∧
      found.Pairwise DatasetRecord.Precedes := by
  have hrecord := find?_records_run historyWithOutage
  obtain ⟨found, hfound, hmem, hsorted⟩ :=
    ((run_reflects historyWithOutage).2.1 rfl).search ⟨"scenes", none, none⟩
  refine ⟨(run_reflects (historyWithOutage.take 4)).1 rfl, found, hfound, ?_, ?_, ?_, ?_, hsorted⟩
  · exact (hmem _).mpr ⟨((hrecord ⟨1⟩ (recordOfTime 1 none)).mp rfl).1, rfl⟩
  · have hkeeps := ((hrecord ⟨2⟩ (recordOfTime 2 (some (.instant ⟨5, 0⟩)))).mp rfl).1
    exact (hmem _).mpr ⟨hkeeps, rfl⟩
  · intro hold
    have hfind := (hrecord ⟨2⟩ _).mpr ⟨((hmem _).mp hold).1, rfl⟩
    have hnew : (run historyWithOutage).records.find? ⟨2⟩ =
        some (recordOfTime 2 (some (.instant ⟨5, 0⟩))) := rfl
    cases hnew.symm.trans hfind
  · intro hrefused
    cases (hrecord ⟨3⟩ _).mpr ⟨((hmem _).mp hrefused).1, rfl⟩

end Example

end Catalog

end Mosaic
