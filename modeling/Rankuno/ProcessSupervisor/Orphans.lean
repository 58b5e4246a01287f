import Rankuno.Foundation.Descent
import Rankuno.Foundation.Machine
import Rankuno.ProcessSupervisor.Ledger

/-!
# Reconciliation over a process table

`reconcile_orphans` takes the entries of the ledger in turn. An orphan, a child that runs
under the recorded creation time and whose supervisor does not, is ended through its job
object, or else with all that the parent PIDs of a snapshot put below it. The system keeps a
parent PID as it was when the process started, whoever holds that PID by now.

The process table is any map from PIDs to a parent PID, a creation time and a job object; a
process that was terminated is no longer in it. Which processes the call may terminate and
which job objects open are parameters. Reconciliation ends, and ends only what it may, exactly
where each entry that it comes to is one it can deal with, `Tractable`.
-/

namespace Rankuno

/-- A process in the table. -/
structure RunningProcess where
  pid : Nat
  parentPid : Nat
  startTime : Timestamp
  /-- The job object it is in. A process starts in that of the process that starts it. -/
  jobObject : Option String := none
  deriving DecidableEq

abbrev ProcessTable := Table Nat RunningProcess.pid

/-- What the system lets the call do. -/
structure SystemAnswers where
  /-- `OpenJobObject` finds the name. -/
  jobOpens : String → Bool
  /-- `OpenProcess` and `TerminateProcess` succeed. -/
  terminable : Nat → Bool

namespace ProcessTable

variable (processes : ProcessTable)

/-- `_process_start_time`, `none` for a PID that `_process_is_alive` finds nobody under. -/
def startTime (pid : Nat) : Option Timestamp :=
  (processes.find? pid).map RunningProcess.startTime

/-- `children.get(current, [])`, of a snapshot. -/
def children (pid : Nat) : List Nat :=
  (processes.rows.filter fun p => p.parentPid = pid).map RunningProcess.pid

/-- `_descendant_pids`, or `none` where the loop never ends: with as many rounds as there are
processes, and two, it has either ended or goes on for ever. -/
def descendantPids (root : Nat) : Option (List Nat) :=
  Descent.walk processes.children (processes.rows.length + 2) [root] []

def without (pids : List Nat) : ProcessTable := processes.delete fun p => pids.contains p.pid

def jobMembers (name : String) : List Nat :=
  (processes.rows.filter fun p => p.jobObject = some name).map RunningProcess.pid

end ProcessTable

/-- Between two entries: the table, what the call returns and what it has ended so far, and
the entries to write back. -/
structure Reconciliation where
  processes : ProcessTable
  killed : List Nat := []
  terminated : List Nat := []
  surviving : Ledger := .empty

namespace Reconciliation

/-- The creation time of the process that holds the PID. -/
def observed (s : Reconciliation) (pid : ℕ+) : Option Timestamp := s.processes.startTime pid

def keep (s : Reconciliation) (row : LedgerRow) : Reconciliation :=
  { s with surviving := s.surviving.put row }

/-- `_kill_via_named_job_object`, with the PID that is reported. -/
def killJobObject (s : Reconciliation) (name : String) (pid : Nat) : Reconciliation :=
  { s with
    processes := s.processes.without (s.processes.jobMembers name)
    terminated := s.terminated ++ s.processes.jobMembers name
    killed := s.killed ++ [pid] }

/-- The processes with these PIDs are terminated, and reported. -/
def killProcesses (s : Reconciliation) (pids : List Nat) : Reconciliation :=
  { s with
    processes := s.processes.without pids
    terminated := s.terminated ++ pids
    killed := s.killed ++ pids }

/-- `_kill_via_process_tree`, and what becomes of the entry. -/
def killProcessTree (system : SystemAnswers) (s : Reconciliation) (row : LedgerRow) :
    Option Reconciliation :=
  (s.processes.descendantPids row.entry.pid).map fun descendants =>
    let pids := ((row.entry.pid : Nat) :: descendants).filter system.terminable
    if pids = [] then s.keep row else s.killProcesses pids

/-- The loop body of `reconcile_orphans`, or `none` where the walk of it never ends. -/
def reconcileEntry (system : SystemAnswers) (s : Reconciliation) (row : LedgerRow) :
    Option Reconciliation :=
  if row.entry.supervisorIsAlive s.observed then some (s.keep row)
  else
    match s.observed row.entry.pid with
    | none => some s
    | some seen =>
      if !sameStart seen row.entry.processStartTime then some s
      else
        match row.entry.jobObjectName.filter system.jobOpens with
        | some name => some (s.killJobObject name row.entry.pid)
        | none => killProcessTree system s row

end Reconciliation

/-- The loop of `reconcile_orphans`. -/
def reconciliation (system : SystemAnswers) : Machine Reconciliation LedgerRow :=
  ⟨Reconciliation.reconcileEntry system⟩

namespace ProcessTable

variable (processes : ProcessTable)

/-- The parent PID of the second is the first's, and the first was there before it: the first
started the second. A younger process only holds the PID of one that did. -/
def Starts (pid child : Nat) : Prop :=
  ∃ p ∈ processes.rows, ∃ c ∈ processes.rows,
    p.pid = pid ∧ c.pid = child ∧ c.parentPid = pid ∧ p.startTime ≤ c.startTime

/-- The process is in this job object. -/
def InJob (pid : Nat) (name : String) : Prop :=
  ∃ p ∈ processes.rows, p.pid = pid ∧ p.jobObject = some name

/-- The processes are in one job object. -/
def SharesJob (pid other : Nat) : Prop :=
  ∃ name, processes.InJob pid name ∧ processes.InJob other name

/-- The first process started the second, itself or through others: the parents say so, or the
job object that the first was assigned to and they share does. -/
def StartedBy (pid other : Nat) : Prop :=
  Relation.TransGen processes.Starts pid other ∨ processes.SharesJob pid other

/-- The parent PIDs lead from the second process up to the first. -/
def Below (pid other : Nat) : Prop := Descent.Below processes.children pid other

/-- On the way from the first process down to the second, every parent PID is of the process
that started the child. -/
def NoStaleParent (pid other : Nat) : Prop :=
  ∀ parent child, (parent = pid ∨ processes.Below pid parent) →
    child ∈ processes.children parent → (child = other ∨ processes.Below child other) →
      processes.Starts parent child

end ProcessTable

namespace Reconciliation

variable (s : Reconciliation)

/-- The process that the entry was written for runs. -/
def ChildRuns (entry : LedgerEntry) : Prop :=
  ∃ seen, s.observed entry.pid = some seen ∧ sameStart seen entry.processStartTime = true

/-- Nobody watches the child of the entry. -/
structure Orphaned (entry : LedgerEntry) : Prop where
  unwatched : entry.supervisorIsAlive s.observed = false
  runs : s.ChildRuns entry

/-- The child of the entry runs under a supervisor that does. -/
structure Supervised (entry : LedgerEntry) : Prop where
  watched : entry.supervisorIsAlive s.observed = true
  runs : s.ChildRuns entry

/-- What was terminated from one state to a later one. -/
def ended (t : Reconciliation) : List Nat := t.terminated.drop s.terminated.length

/-- What one entry may lead to. -/
structure Sound (ledger : Ledger) (row : LedgerRow) (t : Reconciliation) : Prop where
  orphaned : s.ended t ≠ [] → s.Orphaned row.entry
  own : ∀ pid ∈ s.ended t, pid = row.entry.pid ∨ s.processes.StartedBy row.entry.pid pid
  unwatched : ∀ other ∈ ledger.rows, s.Supervised other.entry → (other.entry.pid : Nat) ∉ s.ended t
  dropped : row ∉ t.surviving.rows → ¬s.ChildRuns row.entry ∨ (row.entry.pid : Nat) ∈ s.ended t
  kept : ∀ other ∈ s.surviving.rows, other ∈ t.surviving.rows

/-- The job object is the child's, and no child that is watched is in it. -/
structure JobTractable (ledger : Ledger) (entry : LedgerEntry) (name : String) : Prop where
  inJob : s.processes.InJob entry.pid name
  unwatched : ∀ other ∈ ledger.rows, s.Supervised other.entry →
    ¬s.processes.InJob other.entry.pid name

/-- The child is not below itself; a process below it that can be terminated shares its job
object or is led to by no stale parent PID, and is no child that is watched; and the child can
be terminated if any of them can. -/
structure TreeTractable (system : SystemAnswers) (ledger : Ledger) (entry : LedgerEntry) :
    Prop where
  acyclic : ¬s.processes.Below entry.pid entry.pid
  started : ∀ pid, s.processes.Below entry.pid pid → system.terminable pid = true →
    s.processes.SharesJob entry.pid pid ∨ s.processes.NoStaleParent entry.pid pid
  unwatched : ∀ other ∈ ledger.rows, s.Supervised other.entry →
    system.terminable other.entry.pid = true →
      other.entry.pid ≠ entry.pid ∧ ¬s.processes.Below entry.pid other.entry.pid
  terminable : (∃ pid, s.processes.Below entry.pid pid ∧ system.terminable pid = true) →
    system.terminable entry.pid = true

/-- An entry that reconciliation can deal with: no orphan's; or its job object opens and is as
it should be; or no job object opens for it, and the process tree is. -/
def Tractable (system : SystemAnswers) (ledger : Ledger) (row : LedgerRow) : Prop :=
  s.Orphaned row.entry →
    (∀ name, row.entry.jobObjectName = some name → system.jobOpens name = true →
      s.JobTractable ledger row.entry name) ∧
    ((∀ name, row.entry.jobObjectName = some name → system.jobOpens name = false) →
      s.TreeTractable system ledger row.entry)

end Reconciliation

/-- Reconciliation ends, ends no process twice, and does with each entry what it may. -/
structure Reconciles (system : SystemAnswers) (ledger : Ledger) (processes : ProcessTable) :
    Prop where
  ends : ∃ final, (reconciliation system).run { processes } ledger.rows = some final ∧
    final.terminated.Nodup
  sound : (reconciliation system).Meets
    (fun s row => ∀ t, s.reconcileEntry system row = some t → s.Sound ledger row t)
    { processes } ledger.rows

namespace ProcessTable

variable {processes : ProcessTable} {pid other parent child : Nat} {name : String}
  {pids : List Nat}

theorem mem_children : child ∈ processes.children pid ↔
    ∃ c ∈ processes.rows, c.parentPid = pid ∧ c.pid = child := by
  simp only [children, List.mem_map, List.mem_filter, decide_eq_true_eq, and_assoc]

theorem mem_jobMembers : pid ∈ processes.jobMembers name ↔ processes.InJob pid name := by
  simp only [jobMembers, InJob, List.mem_map, List.mem_filter, decide_eq_true_eq]
  constructor
  · rintro ⟨p, ⟨listed, job⟩, same⟩
    exact ⟨p, listed, same, job⟩
  · rintro ⟨p, listed, same, job⟩
    exact ⟨p, ⟨listed, job⟩, same⟩

theorem eq_of_pid_eq {p q : RunningProcess} (hp : p ∈ processes.rows) (hq : q ∈ processes.rows)
    (same : p.pid = q.pid) : p = q :=
  List.inj_on_of_nodup_map processes.keys_nodup hp hq same

variable (processes) in
theorem oneParent_children : Descent.OneParent processes.children where
  nodup pid := processes.keys_nodup.sublist (List.filter_sublist.map _)
  unique a b c ha hb := by
    obtain ⟨p, hp, rfl, rfl⟩ := mem_children.mp ha
    obtain ⟨q, hq, rfl, same⟩ := mem_children.mp hb
    rw [eq_of_pid_eq hq hp same]

theorem mem_pids_of_mem_children (h : child ∈ processes.children pid) :
    child ∈ processes.rows.map RunningProcess.pid := by
  obtain ⟨c, listed, -, rfl⟩ := mem_children.mp h
  exact List.mem_map_of_mem listed

theorem exists_descendantPids_iff :
    (∃ descendants, processes.descendantPids pid = some descendants) ↔
      ¬processes.Below pid pid := by
  refine Descent.exists_walk_iff (oneParent_children processes)
    (fun _ _ => mem_pids_of_mem_children) ?_
  rw [List.length_map]

theorem descendantPids_spec {descendants : List Nat}
    (h : processes.descendantPids pid = some descendants) :
    (pid :: descendants).Nodup ∧ ∀ other, other ∈ descendants ↔ processes.Below pid other :=
  Descent.walk_eq_some (oneParent_children processes) h

theorem mem_without {p : RunningProcess} :
    p ∈ (processes.without pids).rows ↔ p ∈ processes.rows ∧ p.pid ∉ pids := by
  rw [without, Table.mem_delete, ← Bool.not_eq_true, List.contains_iff_mem]

theorem child_of_starts (h : processes.Starts parent child) :
    child ∈ processes.children parent := by
  obtain ⟨p, -, c, listed, -, same, above, -⟩ := h
  exact mem_children.mpr ⟨c, listed, above, same⟩

theorem eq_or_below_of_child (h : other ∈ processes.children parent)
    (below : processes.Below child other) : child = parent ∨ processes.Below child parent := by
  obtain ⟨last, path, link⟩ := Relation.TransGen.tail'_iff.mp below
  obtain rfl := (oneParent_children processes).unique _ _ _ link h
  exact (Relation.reflTransGen_iff_eq_or_transGen.mp path).imp_left Eq.symm

theorem started_iff (acyclic : ¬processes.Below pid pid) (below : processes.Below pid other) :
    Relation.TransGen processes.Starts pid other ↔ processes.NoStaleParent pid other := by
  constructor
  · intro started
    clear below
    induction started with
    | single starts =>
      intro parent child above link onWay
      have last := child_of_starts starts
      obtain rfl | below := onWay
      · rwa [(oneParent_children processes).unique _ _ _ link last]
      · -- The child would be above the root, and below it too.
        have reached : processes.Below pid child := by
          obtain rfl | above := above
          · exact .single link
          · exact above.tail link
        obtain rfl | back := eq_or_below_of_child last below
        · exact absurd reached acyclic
        · exact absurd (reached.trans back) acyclic
    | tail started starts ih =>
      intro parent child above link onWay
      have last := child_of_starts starts
      obtain rfl | below := onWay
      · rwa [(oneParent_children processes).unique _ _ _ link last]
      · exact ih parent child above link (eq_or_below_of_child last below)
  · intro fresh
    induction below with
    | single link => exact .single (fresh _ _ (Or.inl rfl) link (Or.inl rfl))
    | tail below link ih =>
      refine (ih fun parent child above link' onWay => ?_).tail
        (fresh _ _ (Or.inr below) link (Or.inl rfl))
      refine fresh parent child above link' (Or.inr ?_)
      obtain rfl | onWay := onWay
      · exact .single link
      · exact onWay.tail link

end ProcessTable

namespace Reconciliation

variable {system : SystemAnswers} {ledger : Ledger} {s t : Reconciliation} {row : LedgerRow}
  {name : String} {pid : Nat} {pids : List Nat}

theorem ended_keep : s.ended (s.keep row) = [] := List.drop_length

theorem ended_self : s.ended s = [] := List.drop_length

theorem ended_killJobObject : s.ended (s.killJobObject name pid) = s.processes.jobMembers name :=
  List.drop_left

theorem ended_killProcesses : s.ended (s.killProcesses pids) = pids := List.drop_left

theorem sound_of_ended_nil (none : s.ended t = [])
    (dropped : row ∉ t.surviving.rows → ¬s.ChildRuns row.entry)
    (kept : ∀ other ∈ s.surviving.rows, other ∈ t.surviving.rows) : s.Sound ledger row t where
  orphaned some := absurd none some
  own pid mem := by
    rw [none] at mem
    cases mem
  unwatched other _ _ mem := by
    rw [none] at mem
    cases mem
  dropped away := Or.inl (dropped away)
  kept := kept

theorem sound_keep (fresh : ∀ other ∈ s.surviving.rows, other.jobId ≠ row.jobId) :
    s.Sound ledger row (s.keep row) := by
  refine sound_of_ended_nil ended_keep (fun away => ?_) fun other mem => ?_
  · exact absurd (Table.mem_put.mpr (Or.inr rfl)) away
  · exact Table.mem_put.mpr (Or.inl ⟨mem, fresh other mem⟩)

theorem sound_self (gone : ¬s.ChildRuns row.entry) : s.Sound ledger row s :=
  sound_of_ended_nil ended_self (fun _ => gone) fun _ mem => mem

theorem Sound.killed (sound : s.Sound ledger row t) (orphan : s.Orphaned row.entry)
    (fresh : ∀ other ∈ s.surviving.rows, other.jobId ≠ row.jobId)
    (same : t.surviving = s.surviving) : (row.entry.pid : Nat) ∈ s.ended t := by
  refine (sound.dropped fun mem => ?_).resolve_left fun gone => gone orphan.runs
  rw [same] at mem
  exact fresh row mem rfl

theorem sound_killJobObject_iff (orphan : s.Orphaned row.entry)
    (fresh : ∀ other ∈ s.surviving.rows, other.jobId ≠ row.jobId) :
    s.Sound ledger row (s.killJobObject name pid) ↔ s.JobTractable ledger row.entry name := by
  constructor
  · intro sound
    have killed := sound.killed orphan fresh rfl
    rw [ended_killJobObject, ProcessTable.mem_jobMembers] at killed
    refine ⟨killed, fun other listed watched inJob => sound.unwatched other listed watched ?_⟩
    rwa [ended_killJobObject, ProcessTable.mem_jobMembers]
  · rintro ⟨inJob, unwatched⟩
    refine ⟨fun _ => orphan, fun member mem => ?_, fun other listed watched mem => ?_, fun _ => ?_,
      fun _ mem => mem⟩
    · rw [ended_killJobObject, ProcessTable.mem_jobMembers] at mem
      exact Or.inr (Or.inr ⟨name, inJob, mem⟩)
    · rw [ended_killJobObject, ProcessTable.mem_jobMembers] at mem
      exact unwatched other listed watched mem
    · rw [ended_killJobObject, ProcessTable.mem_jobMembers]
      exact Or.inr inJob

theorem exists_killProcessTree_iff (orphan : s.Orphaned row.entry)
    (fresh : ∀ other ∈ s.surviving.rows, other.jobId ≠ row.jobId) :
    (∃ t, s.killProcessTree system row = some t ∧ s.Sound ledger row t) ↔
      s.TreeTractable system ledger row.entry := by
  by_cases acyclic : s.processes.Below row.entry.pid row.entry.pid
  · refine iff_of_false ?_ fun tractable => tractable.acyclic acyclic
    rintro ⟨t, killed, -⟩
    obtain ⟨descendants, ends, -⟩ := Option.map_eq_some_iff.mp killed
    exact ProcessTable.exists_descendantPids_iff.mp ⟨descendants, ends⟩ acyclic
  obtain ⟨descendants, ends⟩ := ProcessTable.exists_descendantPids_iff.mpr acyclic
  obtain ⟨-, listed⟩ := ProcessTable.descendantPids_spec ends
  have mem_targets {pid : Nat} : pid ∈ ((row.entry.pid : Nat) :: descendants).filter
      system.terminable ↔ (pid = row.entry.pid ∨ s.processes.Below row.entry.pid pid) ∧
        system.terminable pid = true := by
    rw [List.mem_filter, List.mem_cons, listed]
  rw [killProcessTree, ends, Option.map_some]
  simp only [Option.some.injEq, exists_eq_left']
  split
  · next none =>
    refine iff_of_true (sound_keep fresh) ⟨acyclic, fun pid below terminable => ?_,
      fun other _ _ terminable => ?_, ?_⟩
    · exact absurd (mem_targets.mpr ⟨Or.inr below, terminable⟩) (none ▸ List.not_mem_nil)
    · constructor
      · intro same
        exact absurd (mem_targets.mpr ⟨Or.inl (congrArg _ same), terminable⟩)
          (none ▸ List.not_mem_nil)
      · intro below
        exact absurd (mem_targets.mpr ⟨Or.inr below, terminable⟩) (none ▸ List.not_mem_nil)
    · rintro ⟨pid, below, terminable⟩
      exact absurd (mem_targets.mpr ⟨Or.inr below, terminable⟩) (none ▸ List.not_mem_nil)
  · next some =>
    constructor
    · intro sound
      have killed := sound.killed orphan fresh rfl
      rw [ended_killProcesses, mem_targets] at killed
      refine ⟨acyclic, fun pid below terminable => ?_, fun other listed watched terminable => ?_,
        fun _ => killed.2⟩
      · have own := sound.own pid
        rw [ended_killProcesses] at own
        obtain rfl | started | shares := own (mem_targets.mpr ⟨Or.inr below, terminable⟩)
        · exact absurd below acyclic
        · exact Or.inr ((ProcessTable.started_iff acyclic below).mp started)
        · exact Or.inl shares
      · have unwatched := sound.unwatched other listed watched
        rw [ended_killProcesses, mem_targets] at unwatched
        constructor
        · exact fun same => unwatched ⟨Or.inl (congrArg _ same), terminable⟩
        · exact fun below => unwatched ⟨Or.inr below, terminable⟩
    · rintro ⟨-, started, unwatched, terminable⟩
      refine ⟨fun _ => orphan, fun pid mem => ?_, fun other listed watched mem => ?_,
        fun _ => ?_, fun _ mem => mem⟩
      · rw [ended_killProcesses, mem_targets] at mem
        obtain ⟨rfl | below, terminable⟩ := mem
        · exact Or.inl rfl
        · refine Or.inr ?_
          obtain shares | fresh := started pid below terminable
          · exact Or.inr shares
          · exact Or.inl ((ProcessTable.started_iff acyclic below).mpr fresh)
      · rw [ended_killProcesses, mem_targets] at mem
        obtain ⟨differs, notBelow⟩ := unwatched other listed watched mem.2
        exact mem.1.elim (fun same => differs (PNat.coe_injective same)) notBelow
      · rw [ended_killProcesses, mem_targets]
        refine Or.inr ⟨Or.inl rfl, ?_⟩
        obtain ⟨pid, mem⟩ := List.exists_mem_of_ne_nil _ some
        obtain ⟨rfl | below, can⟩ := mem_targets.mp mem
        · exact can
        · exact terminable ⟨pid, below, can⟩

/-- **One entry**: it is dealt with in the end, and soundly, exactly where it is tractable. -/
theorem tractable_iff (fresh : ∀ other ∈ s.surviving.rows, other.jobId ≠ row.jobId) :
    (∃ t, s.reconcileEntry system row = some t ∧ s.Sound ledger row t) ↔
      s.Tractable system ledger row := by
  rw [reconcileEntry]
  split
  · next watched =>
    refine iff_of_true ⟨_, rfl, sound_keep fresh⟩ fun orphan => ?_
    rw [orphan.unwatched] at watched
    cases watched
  · next unwatched =>
    split
    · next gone =>
      refine iff_of_true ⟨s, rfl, sound_self ?_⟩ fun orphan => ?_
      · rintro ⟨seen, runs, -⟩
        rw [gone] at runs
        cases runs
      · obtain ⟨seen, runs, -⟩ := orphan.runs
        rw [gone] at runs
        cases runs
    · next seen runs =>
      split
      · next replaced =>
        have other : ¬s.ChildRuns row.entry := by
          rintro ⟨again, runs', same⟩
          obtain rfl := Option.some.inj (runs.symm.trans runs')
          rw [same] at replaced
          cases replaced
        exact iff_of_true ⟨s, rfl, sound_self other⟩ fun orphan => absurd orphan.runs other
      · next same =>
        have orphan : s.Orphaned row.entry :=
          ⟨Bool.eq_false_iff.mpr unwatched, seen, runs, by simpa using same⟩
        rw [Tractable]
        split
        · next name opens =>
          obtain ⟨named, opens⟩ := Option.filter_eq_some_iff.mp opens
          simp only [Option.some.injEq, exists_eq_left', sound_killJobObject_iff orphan fresh]
          refine ⟨fun tractable _ => ⟨fun other named' _ => ?_, fun none => ?_⟩, fun tractable =>
            (tractable orphan).1 name named opens⟩
          · rwa [Option.some.inj (named'.symm.trans named)]
          · rw [none name named] at opens
            cases opens
        · next none =>
          have closed : ∀ name, row.entry.jobObjectName = some name →
              system.jobOpens name = false := by
            intro name named
            rw [Bool.eq_false_iff]
            intro opens
            rw [Option.filter_eq_none_iff] at none
            exact none name named opens
          rw [exists_killProcessTree_iff orphan fresh]
          refine ⟨fun tractable _ => ⟨fun name named opens => ?_, fun _ => tractable⟩,
            fun tractable => (tractable orphan).2 closed⟩
          rw [closed name named] at opens
          cases opens

theorem reconcileEntry_cases (h : s.reconcileEntry system row = some t) :
    t = s ∨ t = s.keep row ∨ (∃ name pid, t = s.killJobObject name pid) ∨
      ∃ pids : List Nat, pids.Nodup ∧ pids ⊆ s.processes.rows.map RunningProcess.pid ∧
        t = s.killProcesses pids := by
  rw [reconcileEntry] at h
  split at h
  · exact Or.inr (Or.inl (Option.some.inj h).symm)
  split at h
  · exact Or.inl (Option.some.inj h).symm
  next seen runs =>
    split at h
    · exact Or.inl (Option.some.inj h).symm
    split at h
    · next name _ => exact Or.inr (Or.inr (Or.inl ⟨name, _, (Option.some.inj h).symm⟩))
    · obtain ⟨descendants, ends, rfl⟩ := Option.map_eq_some_iff.mp h
      obtain ⟨nodup, below⟩ := ProcessTable.descendantPids_spec ends
      dsimp only
      split
      · exact Or.inr (Or.inl rfl)
      · refine Or.inr (Or.inr (Or.inr ⟨_, nodup.filter _, fun pid mem => ?_, rfl⟩))
        obtain rfl | mem := List.mem_cons.mp (List.mem_of_mem_filter mem)
        · obtain ⟨p, found, -⟩ := Option.map_eq_some_iff.mp runs
          obtain ⟨listed, same⟩ := Table.find?_eq_some.mp found
          exact List.mem_map.mpr ⟨p, listed, same⟩
        · obtain ⟨parent, -, link⟩ := Relation.TransGen.tail'_iff.mp ((below pid).mp mem)
          exact ProcessTable.mem_pids_of_mem_children link

theorem surviving_of_step (h : s.reconcileEntry system row = some t) :
    ∀ other ∈ t.surviving.rows, other ∈ s.surviving.rows ∨ other = row := by
  intro other mem
  obtain rfl | rfl | ⟨name, pid, rfl⟩ | ⟨pids, -, -, rfl⟩ := reconcileEntry_cases h
  · exact Or.inl mem
  · exact (Table.mem_put.mp mem).imp_left And.left
  · exact Or.inl mem
  · exact Or.inl mem

/-- No process was ended twice, and none of those ended is in the table. -/
structure EndsOnce (s : Reconciliation) : Prop where
  nodup : s.terminated.Nodup
  gone : ∀ p ∈ s.processes.rows, p.pid ∉ s.terminated

theorem EndsOnce.append (once : s.EndsOnce) (nodup : pids.Nodup)
    (listed : pids ⊆ s.processes.rows.map RunningProcess.pid) :
    (s.terminated ++ pids).Nodup ∧
      ∀ p ∈ (s.processes.without pids).rows, p.pid ∉ s.terminated ++ pids := by
  constructor
  · refine List.nodup_append.mpr ⟨once.nodup, nodup, ?_⟩
    rintro pid old _ new rfl
    obtain ⟨p, mem, rfl⟩ := List.mem_map.mp (listed new)
    exact once.gone p mem old
  · intro p mem
    obtain ⟨mem, other⟩ := ProcessTable.mem_without.mp mem
    rw [List.mem_append, not_or]
    exact ⟨once.gone p mem, other⟩

theorem EndsOnce.step (once : s.EndsOnce) (h : s.reconcileEntry system row = some t) :
    t.EndsOnce := by
  obtain rfl | rfl | ⟨name, pid, rfl⟩ | ⟨pids, nodup, listed, rfl⟩ := reconcileEntry_cases h
  · exact once
  · exact ⟨once.nodup, once.gone⟩
  · have members : (s.processes.jobMembers name).Sublist
        (s.processes.rows.map RunningProcess.pid) := List.filter_sublist.map _
    obtain ⟨nodup, gone⟩ := once.append (s.processes.keys_nodup.sublist members) members.subset
    exact ⟨nodup, gone⟩
  · obtain ⟨nodup, gone⟩ := once.append nodup listed
    exact ⟨nodup, gone⟩

end Reconciliation

open Reconciliation

variable {system : SystemAnswers} {ledger : Ledger} {processes : ProcessTable}

theorem surviving_of_run {rows : List LedgerRow} {s : Reconciliation}
    (run : (reconciliation system).run { processes } rows = some s) :
    ∀ other ∈ s.surviving.rows, other ∈ rows := by
  refine Machine.trace_invariant (J := fun rows s => ∀ other ∈ s.surviving.rows, other ∈ rows)
    ?_ (fun other mem => absurd mem List.not_mem_nil) run
  intro rows s row t kept step other mem
  rw [List.mem_append, List.mem_singleton]
  exact (surviving_of_step step other mem).imp_left (kept other)

/-- **Reconciliation ends, and ends only its own orphans, exactly where each entry it comes to
is tractable.** -/
theorem reconciles_iff (system : SystemAnswers) (ledger : Ledger) (processes : ProcessTable) :
    Reconciles system ledger processes ↔ (reconciliation system).Meets
      (fun s row => s.Tractable system ledger row) { processes } ledger.rows := by
  have single : (reconciliation system).Meets (fun s row =>
      ∃ t, s.reconcileEntry system row = some t ∧ s.Sound ledger row t) { processes } ledger.rows ↔
        (reconciliation system).Meets (fun s row => s.Tractable system ledger row)
          { processes } ledger.rows := by
    rw [Machine.meets_iff, Machine.meets_iff]
    refine forall_congr' fun before => forall_congr' fun row => forall_congr' fun after =>
      forall_congr' fun s => forall_congr' fun split => forall_congr' fun run => ?_
    refine tractable_iff fun other mem same => ?_
    have keys := ledger.keys_nodup
    rw [split, List.map_append, List.map_cons, List.nodup_append] at keys
    exact keys.2.2 _ (List.mem_map_of_mem (surviving_of_run run other mem)) _
      List.mem_cons_self same
  refine Iff.trans ?_ ((Machine.ends_and_meets_iff (M := reconciliation system)
    (L := fun s row t => s.Sound ledger row t)).trans single)
  constructor
  · rintro ⟨⟨final, run, -⟩, sound⟩
    exact ⟨⟨final, run⟩, sound⟩
  · rintro ⟨⟨final, run⟩, sound⟩
    refine ⟨⟨final, run, ?_⟩, sound⟩
    have once : EndsOnce { processes } := ⟨List.nodup_nil, fun _ _ => List.not_mem_nil⟩
    exact (Machine.invariant (I := EndsOnce) (fun _ _ _ once step => once.step step) once run).nodup

section Recycled

/-- A child whose supervisor, under PID 30, is gone. It was ledgered, and got no job object. -/
def recycledRow : LedgerRow where
  jobId := "a"
  entry := { pid := 40, processStartTime := 2000000, supervisorPid := some 30,
             supervisorStartTime := some 1000000 }

def recycledLedger : Ledger := Table.put .empty recycledRow

theorem nodup_recycledPids :
    ([⟨40, 30, 2000000, none⟩, ⟨30, 40, 3000000, none⟩].map RunningProcess.pid).Nodup := by
  decide

/-- A process that the child started has been given PID 30. -/
def recycledProcesses : ProcessTable :=
  ⟨[⟨40, 30, 2000000, none⟩, ⟨30, 40, 3000000, none⟩], nodup_recycledPids⟩

/-- **The parent PIDs go round in a circle, and so does the walk.** -/
theorem not_reconciles_recycled : ¬∀ (system : SystemAnswers) (ledger : Ledger)
    (processes : ProcessTable), Reconciles system ledger processes := by
  intro always
  obtain ⟨final, run, -⟩ :=
    (always ⟨fun _ => false, fun _ => true⟩ recycledLedger recycledProcesses).ends
  have never : ((reconciliation ⟨fun _ => false, fun _ => true⟩).run
      { processes := recycledProcesses } recycledLedger.rows).isNone = true := by decide
  rw [run] at never
  cases never

end Recycled

end Rankuno
