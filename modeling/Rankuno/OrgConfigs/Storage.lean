import Mathlib.Tactic.SplitIfs
import Rankuno.OrgConfigs.DiskStore

/-!
# Organization settings under storage trouble

What a construction and each call may do to the file and to what `get` answers, and the
faults under which a run keeps to it. Memory is changed before the file is written, so a
write that fails leaves a change that the next write saves; a store that could not read the
file writes one with the default organization alone.
-/

namespace Rankuno.OrgConfigs

namespace Configs

variable {configs configs' : Configs} {orgConfig : OrgConfig} {orgId o : String} {call : OrgCall}

@[simp] theorem get_assign : (configs.assign orgConfig).get o =
    if o = orgConfig.orgId then some orgConfig else configs.get o :=
  Dict.get_alter

@[simp] theorem get_remove : (configs.remove orgId).get o =
    if o = orgId then none else configs.get o := by
  split
  · next same =>
    rw [same, Dict.get, remove, Table.find?_delete_self, Option.map_none]
  · next other => rw [Dict.get, remove, Table.find?_delete_of_ne other, Dict.get]

theorem get_apply (h : configs.apply call = .ok configs') :
    configs'.get o = if o = call.org then call.leaves else configs.get o := by
  cases call with
  | create orgConfig =>
    rw [apply] at h
    split at h
    · cases h
    · cases h
      exact get_assign
  | update orgConfig =>
    rw [apply] at h
    split at h
    · cases h
      exact get_assign
    · cases h
  | delete orgId =>
    rw [apply] at h
    split at h
    · cases h
      exact get_remove
    · cases h

theorem get_apply_of_ne (h : configs.apply call = .ok configs') (other : o ≠ call.org) :
    configs'.get o = configs.get o := by
  rw [get_apply h, if_neg other]

theorem apply_update (configs : Configs) (orgConfig : OrgConfig) {old : OrgConfig}
    (known : configs.get orgConfig.orgId = some old) :
    configs.apply (.update orgConfig) = .ok (configs.assign orgConfig) := by
  rw [apply, known, Option.isSome_some, if_pos rfl]

theorem read_eq_read_iff : configs.read o = configs'.read o ↔ configs.get o = configs'.get o := by
  rw [read, read]
  cases configs.get o <;> cases configs'.get o <;> simp

end Configs

namespace OrgDirectory

variable {s t : OrgDirectory} {event : OrgEvent} {call : OrgCall} {configs configs' : Configs}
  {store : Nat} {o : String} {readFails writeFails : Bool}

/-- What a store answers to `get`. -/
def get (s : OrgDirectory) (store : Nat) (orgId : String) : Option (Except OrgError OrgConfig) :=
  s.stores[store]?.map fun configs => configs.read orgId

/-- The file holds what the calls that returned have left. -/
def Keeps (s : OrgDirectory) : Prop :=
  ∀ orgId orgConfig, s.settled.get orgId = some orgConfig → s.saved orgId = some orgConfig

/-- A construction takes nothing out of the file, a call touches one organization, and a call
that raises changes no answer of its store. -/
def Harmless (s t : OrgDirectory) : OrgEvent → Prop
  | .construct _ _ =>
    ∀ orgId orgConfig, s.saved orgId = some orgConfig → t.saved orgId = some orgConfig
  | .call store call writeFails =>
    (∀ orgId, orgId ≠ call.org → t.saved orgId = s.saved orgId) ∧
      ∀ configs, s.stores[store]? = some configs →
        (s.perform store configs call writeFails).1 ≠ .ok () →
          ∀ orgId, t.get store orgId = s.get store orgId

/-- The steps that do no harm: no store that could not read the file writes it, unless the
file holds the default configuration alone; a write that fails had nothing to change; and a
write is made by a store whose memory has the other configurations as the file does. -/
def Sparing (s : OrgDirectory) : OrgEvent → Prop
  | .construct true false => ∀ orgId orgConfig, s.saved orgId = some orgConfig →
      orgId = "default" ∧ orgConfig = defaultOrg
  | .construct _ _ => True
  | .call store call writeFails => ∀ configs configs', s.stores[store]? = some configs →
      configs.apply call = .ok configs' →
        if writeFails then configs.get call.org = call.leaves
        else ∀ orgId, orgId ≠ call.org → configs.get orgId = s.saved orgId

theorem get_settle : (s.settle call).get o =
    if o = call.org then call.leaves else s.settled.get o := by
  cases call with
  | create orgConfig | update orgConfig => exact Configs.get_assign
  | delete orgId => exact Configs.get_remove

section Construct

theorem loaded_true : s.loaded true = .empty := by
  rw [loaded]
  split <;> rfl

theorem get_loaded_false : (s.loaded false).get o = s.saved o := by
  rw [loaded, saved]
  cases s.file with
  | none => rfl
  | some configs => rfl

theorem construct_of_present (present : ((s.loaded readFails).get "default").isSome) :
    (s.construct readFails writeFails).saved = s.saved := by
  rw [construct, if_pos present]
  rfl

theorem saved_construct_read {orgConfig : OrgConfig} (held : s.saved o = some orgConfig) :
    (s.construct false writeFails).saved o = some orgConfig := by
  cases present : (s.loaded false).get "default" with
  | some _ => rw [construct_of_present (by rw [present]; rfl), held]
  | none =>
    rw [construct, present]
    cases writeFails with
    | true => exact held
    | false =>
      change ((s.loaded false).assign defaultOrg).get o = _
      have other : o ≠ defaultOrg.orgId := by
        rintro rfl
        rw [get_loaded_false] at present
        cases present.symm.trans held
      rw [Configs.get_assign, if_neg other, get_loaded_false, held]

theorem construct_settled : (s.construct readFails writeFails).settled = s.settled := by
  rw [construct]
  dsimp only
  split_ifs <;> rfl

theorem saved_construct_blind : (s.construct true false).saved o =
    if o = "default" then some defaultOrg else none := by
  rw [construct, loaded_true]
  exact Configs.get_assign

theorem construct_harmless_iff :
    Harmless s (s.construct readFails writeFails) (.construct readFails writeFails) ↔
      Sparing s (.construct readFails writeFails) := by
  cases readFails with
  | false => exact iff_of_true (fun _ _ held => saved_construct_read held) trivial
  | true =>
    cases writeFails with
    | true =>
      refine iff_of_true (fun orgId orgConfig held => ?_) trivial
      rwa [construct, loaded_true]
    | false =>
      refine forall₃_congr fun orgId orgConfig held => ?_
      rw [saved_construct_blind]
      constructor
      · intro kept
        split at kept
        · next same => exact ⟨same, (Option.some.inj kept).symm⟩
        · cases kept
      · rintro ⟨rfl, rfl⟩
        rfl

end Construct

section Call

theorem perform_error {e : OrgError} (refused : configs.apply call = .error e) :
    s.perform store configs call writeFails = (.error e, s) := by
  rw [perform, refused]

theorem perform_fails (accepted : configs.apply call = .ok configs') :
    s.perform store configs call true =
      (.error .osError, { s with stores := s.stores.set store configs' }) := by
  rw [perform, accepted]
  rfl

theorem perform_saves (accepted : configs.apply call = .ok configs') :
    s.perform store configs call false =
      (.ok (), ⟨some configs', s.stores.set store configs', s.settle call⟩) := by
  rw [perform, accepted]
  rfl

theorem get_fails (known : s.stores[store]? = some configs)
    (accepted : configs.apply call = .ok configs') :
    (s.perform store configs call true).2.get store o = some (configs'.read o) := by
  rw [perform_fails accepted, get, List.getElem?_set_self (List.getElem?_eq_some_iff.mp known).1]
  rfl

theorem call_harmless_iff (known : s.stores[store]? = some configs) :
    Harmless s (s.perform store configs call writeFails).2 (.call store call writeFails) ↔
      Sparing s (.call store call writeFails) := by
  cases accepted : configs.apply call with
  | error e =>
    rw [perform_error accepted]
    refine iff_of_true ⟨fun _ _ => rfl, fun _ _ _ _ => rfl⟩ fun configs₁ configs' known' ok => ?_
    obtain rfl := Option.some.inj (known.symm.trans known')
    rw [accepted] at ok
    cases ok
  | ok configs' =>
    have sparing : Sparing s (.call store call writeFails) ↔
        if writeFails then configs.get call.org = call.leaves
        else ∀ orgId, orgId ≠ call.org → configs.get orgId = s.saved orgId := by
      refine ⟨fun sparing => sparing configs configs' known accepted, ?_⟩
      intro sparing configs₁ configs₁' known' ok
      obtain rfl := Option.some.inj (known.symm.trans known')
      exact sparing
    rw [sparing]
    cases writeFails with
    | true =>
      have unsaved : ∀ orgId, (s.perform store configs call true).2.saved orgId =
          s.saved orgId := by
        rw [perform_fails accepted]
        exact fun _ => rfl
      constructor
      · rintro ⟨-, unchanged⟩
        have raised : (s.perform store configs call true).1 ≠ .ok () := by
          rw [perform_fails accepted]
          intro ok
          cases ok
        have same := unchanged configs known raised call.org
        rw [get_fails known accepted, get, known] at same
        have same := Configs.read_eq_read_iff.mp (Option.some.inj same)
        rw [Configs.get_apply accepted, if_pos rfl] at same
        exact same.symm
      · intro nothing
        refine ⟨fun orgId _ => unsaved orgId, fun configs₁ _ _ orgId => ?_⟩
        rw [get_fails known accepted, get, known]
        refine congrArg some (Configs.read_eq_read_iff.mpr ?_)
        rw [Configs.get_apply accepted]
        split
        · next same => rw [same, nothing]
        · rfl
    | false =>
      rw [perform_saves accepted]
      constructor
      · rintro ⟨others, -⟩ orgId other
        exact (Configs.get_apply_of_ne accepted other).symm.trans (others orgId other)
      · intro others
        refine ⟨fun orgId other => ?_, fun _ known' raised => ?_⟩
        · exact (Configs.get_apply_of_ne accepted other).trans (others orgId other)
        · obtain rfl := Option.some.inj (known.symm.trans known')
          rw [perform_saves accepted] at raised
          exact absurd rfl raised

theorem keeps_perform (keeps : s.Keeps)
    (harmless : Harmless s (s.perform store configs call writeFails).2
      (.call store call writeFails)) : (s.perform store configs call writeFails).2.Keeps := by
  cases accepted : configs.apply call with
  | error e => rwa [perform_error accepted]
  | ok configs' =>
    cases writeFails with
    | true => rwa [perform_fails accepted]
    | false =>
      rw [perform_saves accepted] at harmless ⊢
      intro orgId orgConfig settled
      have settled : (s.settle call).get orgId = some orgConfig := settled
      rw [get_settle] at settled
      split at settled
      · next same =>
        change configs'.get orgId = _
        rw [Configs.get_apply accepted, if_pos same, settled]
      · next other => exact (harmless.1 orgId other).trans (keeps orgId orgConfig settled)

end Call

theorem step_iff (keeps : s.Keeps) (h : machine.step s event = some t) :
    (t.Keeps ∧ Harmless s t event) ↔ Sparing s event := by
  cases event with
  | construct readFails writeFails =>
    obtain rfl := Option.some.inj h
    rw [← construct_harmless_iff]
    refine and_iff_right_of_imp fun harmless orgId orgConfig settled => ?_
    have settled : s.settled.get orgId = some orgConfig := by
      rwa [construct_settled] at settled
    exact harmless orgId orgConfig (keeps orgId orgConfig settled)
  | call store call writeFails =>
    obtain ⟨configs, known, rfl⟩ := Option.map_eq_some_iff.mp h
    rw [← call_harmless_iff known]
    exact and_iff_right_of_imp fun harmless => keeps_perform keeps harmless

/-- The file keeps what returned calls left, and no step does harm, if and only if every
step is sparing. -/
theorem storage_iff (file : Option Configs) (events : List OrgEvent) :
    machine.Always Keeps { file } events ∧
        machine.Meets (fun s event => ∀ t, machine.step s event = some t → Harmless s t event)
          { file } events ↔
      machine.Meets Sparing { file } events := by
  refine Machine.always_and_meets_iff (fun s event t keeps h => ?_) (fun s event h => ?_)
    fun orgId orgConfig settled => ?_
  · rw [← step_iff keeps h]
    refine and_congr_right fun _ => ⟨fun harmless => harmless t h, fun harmless u hu => ?_⟩
    rwa [← Option.some.inj (h.symm.trans hu)]
  · refine ⟨fun t ht => ?_, ?_⟩
    · cases h.symm.trans ht
    · cases event with
      | construct readFails writeFails => cases h
      | call store call writeFails =>
        intro configs _ known
        have absent := Option.map_eq_none_iff.mp h
        cases absent.symm.trans known
  · cases settled

/-- A store that cannot read the file once writes one without the other organization. -/
theorem unread_file_emptied : ¬∀ (file : Option Configs) (events : List OrgEvent),
      machine.Always Keeps { file } events ∧
        machine.Meets (fun s event => ∀ t, machine.step s event = some t → Harmless s t event)
          { file } events := by
  intro storage
  let acme : OrgConfig := { orgId := "acme", displayName := "Acme" }
  let file : Configs := Configs.assign (Configs.assign .empty defaultOrg) acme
  have harmless := (storage (some file) [.construct true false]).2.head _ rfl "acme" acme rfl
  rw [saved_construct_blind] at harmless
  exact absurd harmless (by decide)

end OrgDirectory

end Rankuno.OrgConfigs
