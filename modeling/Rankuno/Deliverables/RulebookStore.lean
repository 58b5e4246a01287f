import Rankuno.Foundation.Machine
import Rankuno.Foundation.Table
import Rankuno.Python.Text
import Rankuno.Python.Values

/-!
# Stored rulebooks

An uploaded rulebook is a workbook and a metadata record beside it, under one
fresh id. `create` puts the workbook in place and then writes the record;
`delete` removes the workbook and then the record, in one hold of the lock. Each
rename, atomic write and unlink is a step, which may fail, and the process may
crash between any two of them. Readers take the lock, so they find nothing while
a delete holds it.

Whether a text of bytes is a readable workbook, and how many rules it has, is a
parameter. The store also remembers what was uploaded under each id and which
deletes have returned. A record never advertises a workbook that is not there
exactly as long as no delete stops between its two unlinks, `Finishes`.
-/

namespace Rankuno

def maxRulebookLabelLength : Nat := 200

structure RulebookRecord where
  id : String
  orgId : String
  label : String
  ruleCount : Nat
  sizeBytes : Nat
  createdAt : Timestamp
  deriving DecidableEq

/-- The bytes of a workbook, under the id they are stored or were uploaded for. -/
structure RulebookFile where
  id : String
  content : List UInt8
  deriving DecidableEq

/-- A call of `create` whose content was read as a workbook. -/
structure RulebookUpload where
  id : String
  orgId : String
  label : String
  content : List UInt8
  ruleCount : Nat
  placed : Bool := false
  deriving DecidableEq

namespace RulebookUpload

/-- The pattern and the length `RulebookRecord` asks of `org_id`. -/
def orgAllowed (call : RulebookUpload) : Bool :=
  call.orgId ≠ "" && call.orgId.toList.all Python.Text.isSlugChar

def record (call : RulebookUpload) (now : Timestamp) : RulebookRecord where
  id := call.id
  orgId := call.orgId
  label := String.ofList (call.label.toList.take maxRulebookLabelLength)
  ruleCount := call.ruleCount
  sizeBytes := call.content.length
  createdAt := now

end RulebookUpload

/-- The directory, the calls under way, and what callers were told. -/
structure RulebookStore where
  files : Table String RulebookFile.id := .empty
  records : Table String RulebookRecord.id := .empty
  creating : Table String RulebookUpload.id := .empty
  /-- The ids of the deletes that have found their record. -/
  deleting : List String := []
  /-- The id whose workbook a delete has removed. That delete holds the lock. -/
  unlinked : Option String := none
  uploads : Table String RulebookFile.id := .empty
  deleted : List String := []
  deriving DecidableEq

inductive RulebookEvent where
  /-- `create` reads the content, under an id `uuid4` has not returned before. -/
  | upload (id orgId label : String) (content : List UInt8)
  | place (id : String) (fails : Bool)
  | writeRecord (id : String) (now : Timestamp) (fails : Bool)
  /-- The `get` of a `delete` finds a record. -/
  | requestDelete (id : String)
  | unlinkFile (id : String) (fails : Bool)
  | unlinkRecord (fails : Bool)
  | crash
  deriving DecidableEq

namespace RulebookStore

/-- What a reader can find. While a delete holds the lock there is no reader. -/
def readable (s : RulebookStore) : List RulebookRecord :=
  if s.unlinked = none then s.records.rows else []

def get (s : RulebookStore) (id : String) : Option RulebookRecord :=
  s.readable.find? fun record => record.id = id

def listAll (s : RulebookStore) : List RulebookRecord :=
  s.readable.mergeSort fun a b => b.createdAt ≤ a.createdAt

/-- `path_for`. The record is read in one state and the workbook looked for in a
later one; the path is named by the id. -/
def pathFor (s t : RulebookStore) (id : String) : Option String :=
  (s.get id).bind fun _ => if (t.files.find? id).isSome then some id else none

/-- A call of `create` ends. -/
def endCreate (s : RulebookStore) (id : String) : RulebookStore :=
  { s with creating := s.creating.delete fun call => call.id = id }

/-- The rename of a workbook. The record is built after it, and may be refused. -/
def placeFile (s : RulebookStore) (call : RulebookUpload) : RulebookStore :=
  let s := { s with files := s.files.put ⟨call.id, call.content⟩ }
  if call.orgAllowed then { s with creating := s.creating.put { call with placed := true } }
  else s.endCreate call.id

def putRecord (s : RulebookStore) (record : RulebookRecord) : RulebookStore :=
  { s with records := s.records.put record }

def unlinkFile (s : RulebookStore) (id : String) : RulebookStore :=
  { s with files := s.files.delete fun file => file.id = id, unlinked := some id }

def unlinkRecord (s : RulebookStore) (id : String) : RulebookStore :=
  { s with
    records := s.records.delete fun record => record.id = id
    deleted := id :: s.deleted }

section Steps

variable (parse : List UInt8 → Option Nat)

/-- One step of a call, or a crash. `parse` is `Rulebook.from_xlsx`. -/
def step (s : RulebookStore) : RulebookEvent → Option RulebookStore
  | .upload id orgId label content =>
    match parse content with
    | none => some s
    | some ruleCount =>
      (s.uploads.insert? ⟨id, content⟩).map fun uploads =>
        { s with uploads, creating := s.creating.put { id, orgId, label, content, ruleCount } }
  | .place id fails =>
    match s.unlinked, s.creating.find? id with
    | none, some call =>
      if call.placed then none else some (if fails then s.endCreate id else s.placeFile call)
    | _, _ => none
  | .writeRecord id now fails =>
    match s.unlinked, s.creating.find? id with
    | none, some call =>
      if call.placed then
        some (if fails then s.endCreate id else (s.putRecord (call.record now)).endCreate id)
      else none
    | _, _ => none
  | .requestDelete id =>
    if (s.get id).isSome then some { s with deleting := id :: s.deleting } else none
  | .unlinkFile id fails =>
    if s.unlinked = none ∧ id ∈ s.deleting then
      let s := { s with deleting := s.deleting.erase id }
      some (if fails then s else s.unlinkFile id)
    else none
  | .unlinkRecord fails =>
    s.unlinked.map fun id =>
      let s := { s with unlinked := none }
      if fails then s else s.unlinkRecord id
  | .crash => some { s with creating := .empty, deleting := [], unlinked := none }

end Steps

/-- The workbook of the record is there, is what was uploaded, and has as many
rules and bytes as the record says. -/
def Backed (parse : List UInt8 → Option Nat) (s : RulebookStore) (record : RulebookRecord) : Prop :=
  ∃ file, s.files.find? record.id = some file ∧ s.uploads.find? record.id = some file ∧
    parse file.content = some record.ruleCount ∧ file.content.length = record.sizeBytes

/-- What readers are promised. -/
structure Sound (parse : List UInt8 → Option Nat) (s : RulebookStore) : Prop where
  get_backed : ∀ id record, s.get id = some record → s.Backed parse record
  listAll_backed : ∀ record ∈ s.listAll, s.Backed parse record
  get_deleted : ∀ id ∈ s.deleted, s.get id = none
  listAll_deleted : ∀ record ∈ s.listAll, record.id ∉ s.deleted

/-- A delete that has removed the workbook of a record is not stopped, neither
by a crash nor by an unlink that fails. -/
def Finishes (s : RulebookStore) : RulebookEvent → Prop
  | .crash | .unlinkRecord true => ∀ id, s.unlinked = some id → s.records.find? id = none
  | _ => True

section Reading

variable {parse : List UInt8 → Option Nat} {s : RulebookStore} {id : String}
variable {record : RulebookRecord}

theorem mem_readable : record ∈ s.readable ↔ s.unlinked = none ∧ record ∈ s.records.rows := by
  rw [readable]
  split
  · next free => simp [free]
  · next held => simp [held]

theorem mem_listAll : record ∈ s.listAll ↔ record ∈ s.readable :=
  List.mem_mergeSort

theorem get_eq_some : s.get id = some record ↔ record ∈ s.readable ∧ record.id = id := by
  rw [mem_readable]
  by_cases free : s.unlinked = none
  · rw [get, readable, if_pos free]
    simp only [free, true_and]
    exact Table.find?_eq_some
  · simp [get, readable, free]

theorem sound_iff : s.Sound parse ↔ (s.unlinked = none → ∀ record ∈ s.records.rows,
    s.Backed parse record ∧ record.id ∉ s.deleted) := by
  constructor
  · intro sound free record mem
    have listed : record ∈ s.listAll := mem_listAll.mpr (mem_readable.mpr ⟨free, mem⟩)
    exact ⟨sound.listAll_backed record listed, sound.listAll_deleted record listed⟩
  · intro h
    have readable : ∀ record ∈ s.readable, s.Backed parse record ∧ record.id ∉ s.deleted := by
      intro record mem
      obtain ⟨free, mem⟩ := mem_readable.mp mem
      exact h free record mem
    refine ⟨fun id record found => ?_, fun record mem => ?_, fun id gone => ?_,
      fun record mem => ?_⟩
    · exact (readable record (get_eq_some.mp found).1).1
    · exact (readable record (mem_listAll.mp mem)).1
    · cases found : s.get id with
      | none => rfl
      | some record =>
        obtain ⟨mem, rfl⟩ := get_eq_some.mp found
        exact absurd gone (readable record mem).2
    · exact (readable record (mem_listAll.mp mem)).2

end Reading

/-- The id is past its `create`. -/
def Used (s : RulebookStore) (id : String) : Prop :=
  (s.records.find? id).isSome ∨ id ∈ s.deleting ∨ s.unlinked = some id ∨ id ∈ s.deleted

/-- What a call of `create` relies on while it runs. -/
structure Pending (parse : List UInt8 → Option Nat) (s : RulebookStore) (call : RulebookUpload) :
    Prop where
  uploaded : s.uploads.find? call.id = some ⟨call.id, call.content⟩
  parsed : parse call.content = some call.ruleCount
  unused : ¬s.Used call.id
  placed : call.placed = true → s.files.find? call.id = some ⟨call.id, call.content⟩

/-- A record whose workbook is gone is the one a delete is about to unlink. -/
structure Keeps (parse : List UInt8 → Option Nat) (s : RulebookStore) : Prop where
  backed : ∀ record ∈ s.records.rows, s.unlinked ≠ some record.id → s.Backed parse record
  pending : ∀ call ∈ s.creating.rows, s.Pending parse call
  used : ∀ id, s.Used id → (s.uploads.find? id).isSome
  deleted : ∀ id ∈ s.deleted, s.records.find? id = none
  gone : ∀ id, s.unlinked = some id → s.files.find? id = none

section Keeping

variable {parse : List UInt8 → Option Nat} {s t : RulebookStore} {id orgId label : String}
variable {content : List UInt8} {record : RulebookRecord} {call : RulebookUpload}
variable {now : Timestamp}

theorem keeps_empty : Keeps parse {} where
  backed := fun _ mem => absurd mem List.not_mem_nil
  pending := fun _ mem => absurd mem List.not_mem_nil
  used := by
    rintro id (found | mem | held | mem)
    · cases found
    · cases mem
    · cases held
    · cases mem
  deleted := fun _ mem => absurd mem List.not_mem_nil
  gone := by
    intro id held
    cases held

theorem Keeps.sound (h : s.Keeps parse) : s.Sound parse := by
  refine sound_iff.mpr fun free record mem => ⟨h.backed record mem (by simp [free]), fun gone => ?_⟩
  exact Table.find?_eq_none.mp (h.deleted record.id gone) record mem rfl

theorem Backed.frame (h : s.Backed parse record)
    (files : t.files.find? record.id = s.files.find? record.id)
    (uploads : ∀ file, s.uploads.find? record.id = some file →
      t.uploads.find? record.id = some file) : t.Backed parse record := by
  obtain ⟨file, present, uploaded, parsed⟩ := h
  exact ⟨file, files.trans present, uploads file uploaded, parsed⟩

theorem Keeps.endCreate (h : s.Keeps parse) : (s.endCreate id).Keeps parse where
  backed := h.backed
  pending := by
    intro call mem
    obtain ⟨uploaded, parsed, unused, placed⟩ := h.pending call (Table.mem_delete.mp mem).1
    exact ⟨uploaded, parsed, unused, placed⟩
  used := h.used
  deleted := h.deleted
  gone := h.gone

theorem Keeps.upload {uploads : Table String RulebookFile.id} {ruleCount : Nat} (h : s.Keeps parse)
    (parsed : parse content = some ruleCount)
    (inserted : s.uploads.insert? ⟨id, content⟩ = some uploads) :
    Keeps parse
      { s with uploads, creating := s.creating.put { id, orgId, label, content, ruleCount } } where
  backed := by
    intro record mem free
    exact (h.backed record mem free).frame rfl fun _ => Table.find?_insert?_of_some inserted
  pending := by
    intro call mem
    obtain ⟨mem, -⟩ | rfl := Table.mem_put.mp mem
    · obtain ⟨uploaded, parsed, unused, placed⟩ := h.pending call mem
      exact ⟨Table.find?_insert?_of_some inserted uploaded, parsed, unused, placed⟩
    · refine ⟨?_, parsed, fun used => ?_, fun placed => by cases placed⟩
      · rw [Table.find?_insert? inserted, if_pos rfl]
      · have known := h.used id used
        rw [(Table.insert?_eq_some.mp inserted).1] at known
        cases known
  used := fun id used => Table.isSome_find?_insert? inserted (h.used id used)
  deleted := h.deleted
  gone := h.gone

theorem Keeps.placeFile (h : s.Keeps parse) (mem : call ∈ s.creating.rows)
    (free : s.unlinked = none) : (s.placeFile call).Keeps parse := by
  have pending := h.pending call mem
  have placed : Keeps parse { s with files := s.files.put ⟨call.id, call.content⟩ } :=
    { backed := by
        intro record recorded unheld
        refine (h.backed record recorded unheld).frame ?_ fun _ known => known
        rw [Table.find?_put, if_neg]
        intro same
        refine pending.unused (Or.inl ?_)
        rw [show call.id = record.id from same, Table.find?_key recorded]
        rfl
      pending := by
        intro other mem
        obtain ⟨uploaded, parsed, unused, placed⟩ := h.pending other mem
        refine ⟨uploaded, parsed, unused, fun done => ?_⟩
        rw [Table.find?_put]
        split
        · next same =>
          exact pending.uploaded.symm.trans ((congrArg s.uploads.find? same).trans uploaded)
        · exact placed done
      used := h.used
      deleted := h.deleted
      gone := by
        intro id held
        rw [free] at held
        cases held }
  rw [RulebookStore.placeFile]
  split
  · refine { placed with pending := fun other mem => ?_ }
    obtain ⟨mem, -⟩ | rfl := Table.mem_put.mp mem
    · obtain ⟨uploaded, parsed, unused, done⟩ := placed.pending other mem
      exact ⟨uploaded, parsed, unused, done⟩
    · exact ⟨pending.uploaded, pending.parsed, pending.unused, fun _ => by
        rw [Table.find?_put, if_pos rfl]⟩
  · exact placed.endCreate

theorem Keeps.putRecord (h : s.Keeps parse) (mem : call ∈ s.creating.rows)
    (placed : call.placed = true) :
    ((s.putRecord (call.record now)).endCreate call.id).Keeps parse where
  backed := by
    intro record recorded unheld
    obtain ⟨recorded, -⟩ | rfl := Table.mem_put.mp recorded
    · exact (h.backed record recorded unheld).frame rfl fun _ known => known
    · obtain ⟨uploaded, parsed, -, present⟩ := h.pending call mem
      exact ⟨_, present placed, uploaded, parsed, rfl⟩
  pending := by
    intro other kept
    obtain ⟨kept, apart⟩ := Table.mem_delete.mp kept
    obtain ⟨uploaded, parsed, unused, present⟩ := h.pending other kept
    refine ⟨uploaded, parsed, fun used => unused ?_, present⟩
    obtain found | used := used
    · rw [RulebookStore.endCreate, RulebookStore.putRecord, Table.find?_put, if_neg] at found
      · exact Or.inl found
      · exact fun same => of_decide_eq_false apart same.symm
    · exact Or.inr used
  used := by
    intro id used
    obtain found | used := used
    · rw [RulebookStore.endCreate, RulebookStore.putRecord, Table.find?_put] at found
      split at found
      · next same =>
        rw [← same]
        exact Option.isSome_of_eq_some (h.pending call mem).uploaded
      · exact h.used id (Or.inl found)
    · exact h.used id (Or.inr used)
  deleted := by
    intro id gone
    rw [RulebookStore.endCreate, RulebookStore.putRecord, Table.find?_put, if_neg]
    · exact h.deleted id gone
    · rintro rfl
      exact (h.pending call mem).unused (Or.inr (Or.inr (Or.inr gone)))
  gone := h.gone

theorem Keeps.requestDelete (h : s.Keeps parse) (found : (s.get id).isSome) :
    Keeps parse { s with deleting := id :: s.deleting } := by
  obtain ⟨record, found⟩ := Option.isSome_iff_exists.mp found
  obtain ⟨readable, rfl⟩ := get_eq_some.mp found
  have recorded : (s.records.find? record.id).isSome :=
    Option.isSome_of_eq_some (Table.find?_key (mem_readable.mp readable).2)
  have used : ∀ id, Used { s with deleting := record.id :: s.deleting } id → s.Used id := by
    rintro id (found | mem | rest)
    · exact Or.inl found
    · obtain rfl | mem := List.mem_cons.mp mem
      · exact Or.inl recorded
      · exact Or.inr (Or.inl mem)
    · exact Or.inr (Or.inr rest)
  exact
    { backed := h.backed
      pending := fun call mem =>
        have ⟨uploaded, parsed, unused, placed⟩ := h.pending call mem
        ⟨uploaded, parsed, fun h => unused (used _ h), placed⟩
      used := fun id h' => h.used id (used id h')
      deleted := h.deleted
      gone := h.gone }

theorem Keeps.eraseDelete (h : s.Keeps parse) :
    Keeps parse { s with deleting := s.deleting.erase id } := by
  have used : ∀ k, Used { s with deleting := s.deleting.erase id } k → s.Used k := by
    rintro k (found | mem | rest)
    · exact Or.inl found
    · exact Or.inr (Or.inl (List.mem_of_mem_erase mem))
    · exact Or.inr (Or.inr rest)
  exact
    { backed := h.backed
      pending := fun call mem =>
        have ⟨uploaded, parsed, unused, placed⟩ := h.pending call mem
        ⟨uploaded, parsed, fun h => unused (used _ h), placed⟩
      used := fun k h' => h.used k (used k h')
      deleted := h.deleted
      gone := h.gone }

theorem Keeps.unlinkFile (h : s.Keeps parse) (free : s.unlinked = none) (used : s.Used id) :
    (s.unlinkFile id).Keeps parse where
  backed := by
    intro record recorded unheld
    have other : record.id ≠ id := fun same => unheld (congrArg some same.symm)
    refine (h.backed record recorded (by simp [free])).frame ?_ fun _ known => known
    exact Table.find?_delete_of_ne other
  pending := by
    intro call mem
    obtain ⟨uploaded, parsed, unused, placed⟩ := h.pending call mem
    have other : call.id ≠ id := fun same => unused (same ▸ used)
    refine ⟨uploaded, parsed, ?_, fun done => ?_⟩
    · rintro (found | mem | held | gone)
      · exact unused (Or.inl found)
      · exact unused (Or.inr (Or.inl mem))
      · exact other (Option.some.inj held).symm
      · exact unused (Or.inr (Or.inr (Or.inr gone)))
    · exact (Table.find?_delete_of_ne other).trans (placed done)
  used := by
    rintro k (found | mem | held | gone)
    · exact h.used k (Or.inl found)
    · exact h.used k (Or.inr (Or.inl mem))
    · exact Option.some.inj held ▸ h.used id used
    · exact h.used k (Or.inr (Or.inr (Or.inr gone)))
  deleted := h.deleted
  gone := by
    intro k held
    cases held
    exact Table.find?_delete_self

theorem Keeps.unlinkRecord (h : s.Keeps parse) (held : s.unlinked = some id) :
    Keeps parse ({ s with unlinked := none }.unlinkRecord id) := by
  have removed : ∀ k, ((s.records.delete fun record => record.id = id).find? k).isSome →
      (s.records.find? k).isSome := by
    intro k found
    rw [Table.find?_delete] at found
    exact Option.isSome_of_isSome_filter _ _ found
  exact
    { backed := by
        intro record recorded _
        obtain ⟨recorded, other⟩ := Table.mem_delete.mp recorded
        refine (h.backed record recorded fun same => ?_).frame rfl fun _ known => known
        rw [held] at same
        exact of_decide_eq_false other (Option.some.inj same).symm
      pending := by
        intro call mem
        obtain ⟨uploaded, parsed, unused, placed⟩ := h.pending call mem
        refine ⟨uploaded, parsed, ?_, placed⟩
        rintro (found | mem | free | gone)
        · exact unused (Or.inl (removed _ found))
        · exact unused (Or.inr (Or.inl mem))
        · cases free
        · obtain same | gone := List.mem_cons.mp gone
          · exact unused (Or.inr (Or.inr (Or.inl (same ▸ held))))
          · exact unused (Or.inr (Or.inr (Or.inr gone)))
      used := by
        rintro k (found | mem | free | gone)
        · exact h.used k (Or.inl (removed k found))
        · exact h.used k (Or.inr (Or.inl mem))
        · cases free
        · obtain rfl | gone := List.mem_cons.mp gone
          · exact h.used k (Or.inr (Or.inr (Or.inl held)))
          · exact h.used k (Or.inr (Or.inr (Or.inr gone)))
      deleted := by
        intro k gone
        obtain rfl | gone := List.mem_cons.mp gone
        · exact Table.find?_delete_self
        · exact Table.find?_delete.trans (by rw [h.deleted k gone, Option.filter_none])
      gone := by
        intro k free
        cases free }

theorem Keeps.release {creating : Table String RulebookUpload.id} {deleting : List String}
    (h : s.Keeps parse) (finishes : ∀ id, s.unlinked = some id → s.records.find? id = none)
    (fewer : ∀ call ∈ creating.rows, call ∈ s.creating.rows)
    (fewer' : ∀ id ∈ deleting, id ∈ s.deleting) :
    Keeps parse { s with creating, deleting, unlinked := none } := by
  have used : ∀ k, Used { s with creating, deleting, unlinked := none } k → s.Used k := by
    rintro k (found | mem | free | gone)
    · exact Or.inl found
    · exact Or.inr (Or.inl (fewer' k mem))
    · cases free
    · exact Or.inr (Or.inr (Or.inr gone))
  exact
    { backed := by
        intro record recorded _
        refine (h.backed record recorded fun held => ?_).frame rfl fun _ known => known
        exact Table.find?_eq_none.mp (finishes record.id held) record recorded rfl
      pending := fun call mem =>
        have ⟨uploaded, parsed, unused, placed⟩ := h.pending call (fewer call mem)
        ⟨uploaded, parsed, fun h => unused (used _ h), placed⟩
      used := fun k h' => h.used k (used k h')
      deleted := h.deleted
      gone := by
        intro k free
        cases free }

end Keeping

section Runs

variable {parse : List UInt8 → Option Nat} {s t : RulebookStore} {event : RulebookEvent}

theorem keeps_step (h : s.Keeps parse) (finishes : s.Finishes event)
    (hstep : s.step parse event = some t) : t.Keeps parse := by
  cases event with
  | upload id orgId label content =>
    rw [step] at hstep
    split at hstep
    · cases hstep
      exact h
    · next ruleCount parsed =>
      obtain ⟨uploads, inserted, rfl⟩ := Option.map_eq_some_iff.mp hstep
      exact h.upload parsed inserted
  | place id fails =>
    rw [step] at hstep
    split at hstep
    · next call free found =>
      split at hstep
      · cases hstep
      · cases hstep
        split
        · exact h.endCreate
        · exact h.placeFile (Table.find?_eq_some.mp found).1 free
    · cases hstep
  | writeRecord id now fails =>
    rw [step] at hstep
    split at hstep
    · next call free found =>
      obtain ⟨mem, rfl⟩ := Table.find?_eq_some.mp found
      split at hstep
      · next placed =>
        cases hstep
        split
        · exact h.endCreate
        · exact h.putRecord mem placed
      · cases hstep
    · cases hstep
  | requestDelete id =>
    rw [step] at hstep
    split at hstep
    · next found =>
      cases hstep
      exact h.requestDelete found
    · cases hstep
  | unlinkFile id fails =>
    rw [step] at hstep
    split at hstep
    · next enabled =>
      cases hstep
      split
      · exact h.eraseDelete
      · exact (h.unlinkFile enabled.1 (Or.inr (Or.inl enabled.2))).eraseDelete
    · cases hstep
  | unlinkRecord fails =>
    obtain ⟨id, held, rfl⟩ := Option.map_eq_some_iff.mp hstep
    split
    · next fails =>
      subst fails
      exact h.release finishes (fun _ mem => mem) fun _ mem => mem
    · exact h.unlinkRecord held
  | crash =>
    cases hstep
    exact h.release finishes (fun _ mem => absurd mem List.not_mem_nil)
      fun _ mem => absurd mem List.not_mem_nil

theorem finishes_of_sound (h : s.Keeps parse) (hstep : s.step parse event = some t)
    (sound : t.Sound parse) : s.Finishes event := by
  have stopped : ∀ id record, s.unlinked = some id → s.records.find? id = some record →
      t.unlinked = none → t.records = s.records → t.files = s.files → False := by
    intro id record held found free records files
    obtain ⟨mem, rfl⟩ := Table.find?_eq_some.mp found
    obtain ⟨⟨file, present, -⟩, -⟩ := sound_iff.mp sound free record (records ▸ mem)
    rw [files, h.gone record.id held] at present
    cases present
  cases event with
  | unlinkRecord fails =>
    cases fails with
    | false => trivial
    | true =>
      intro id held
      obtain ⟨id', -, rfl⟩ := Option.map_eq_some_iff.mp hstep
      cases found : s.records.find? id with
      | none => rfl
      | some record => exact (stopped id record held found rfl rfl rfl).elim
  | crash =>
    intro id held
    cases hstep
    cases found : s.records.find? id with
    | none => rfl
    | some record => exact (stopped id record held found rfl rfl rfl).elim
  | upload | place | writeRecord | requestDelete | unlinkFile => trivial

end Runs

end RulebookStore

/-- The machine of a store, for a given reading of workbooks. -/
def rulebooks (parse : List UInt8 → Option Nat) : Machine RulebookStore RulebookEvent :=
  ⟨RulebookStore.step parse⟩

namespace RulebookStore

theorem finishes_of_step_eq_none {parse : List UInt8 → Option Nat} {s : RulebookStore}
    {event : RulebookEvent} (h : s.step parse event = none) : s.Finishes event := by
  cases event with
  | unlinkRecord fails =>
    cases fails with
    | false => trivial
    | true =>
      intro id held
      rw [step, held] at h
      cases h
  | crash => cases h
  | upload | place | writeRecord | requestDelete | unlinkFile => trivial

/-- **A record has its workbook unless a delete is stopped between its unlinks.**
In every run, readers find only records whose workbook is there as it was
uploaded, and none that was deleted, exactly when no crash and no failed unlink
stops a delete that has removed the workbook of a record. -/
theorem always_sound_iff_finishes (parse : List UInt8 → Option Nat) (run : List RulebookEvent) :
    (rulebooks parse).Always (Sound parse) {} run ↔ (rulebooks parse).Meets Finishes {} run :=
  Machine.always_iff_meets_of_invariant (fun _ _ _ => keeps_step) (fun _ => Keeps.sound)
    (fun _ _ _ => finishes_of_sound) (fun _ _ => finishes_of_step_eq_none) keeps_empty

/-- A rulebook is uploaded, and the process crashes in the middle of its deletion. -/
def sampleCrash : List RulebookEvent :=
  [.upload "a" "org" "" [1], .place "a" false, .writeRecord "a" 0 false, .requestDelete "a",
    .unlinkFile "a" false, .crash]

/-- The record is still listed, and its workbook is gone. -/
theorem advertises_missing_file : ¬(rulebooks fun content => some content.length).Always
      (Sound fun content => some content.length) {} sampleCrash := by
  intro always
  have listed : ((rulebooks fun content => some content.length).run {} sampleCrash).any
      fun s => (s.get "a").isSome && (s.files.find? "a").isNone := by decide
  obtain ⟨s, hs, listed⟩ := (Option.any_eq_true _ _).mp listed
  rw [Bool.and_eq_true, Option.isNone_iff_eq_none] at listed
  obtain ⟨record, found⟩ := Option.isSome_iff_exists.mp listed.1
  obtain ⟨file, present, -⟩ := (always.last hs).get_backed "a" record found
  obtain ⟨-, same⟩ := get_eq_some.mp found
  rw [same, listed.2] at present
  cases present

end RulebookStore

end Rankuno
