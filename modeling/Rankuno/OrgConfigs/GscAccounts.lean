import Mathlib.Data.List.Forall2
import Mathlib.Data.List.Sort
import Rankuno.Foundation.Linearization
import Rankuno.OrgConfigs.Storage

/-!
# Search Console accounts

The two stores of an organization's accounts. `DiskGscAccountStore` reads the whole
organization and writes it back, in two calls of the store of organizations, which hold its
lock one at a time. `PostgresGscAccountStore` makes each call one transaction. Both are
compared with a plain map from account names to credentials.

The order of account names in a listing is Python's in one store and the database's in the
other, and a parameter here. So is the cipher of the stored credentials, which gives back
what it has encrypted for the same organization, account and field.
-/

namespace Rankuno.OrgConfigs

abbrev GscAccounts := Dict String GscAccountCredential

inductive UpsertOutcome where
  | created
  | replaced
  deriving DecidableEq

structure GscAccountSummary where
  accountName : String
  clientId : Option String
  hasSecretOverride : Bool
  deriving DecidableEq

inductive GscAccountCall where
  | upsert (accountName : String) (credential : GscAccountCredential)
  | delete (accountName : String)
  | getCredential (accountName : String)
  | listAccounts
  deriving DecidableEq

/-- What a call returns, or the error it raises. -/
inductive GscAccountResult where
  | upserted (outcome : UpsertOutcome)
  | deleted (found : Bool)
  | credential (credential : Option GscAccountCredential)
  | listing (accounts : List GscAccountSummary)
  | keyError
  | decryptionError
  deriving DecidableEq

def summaryOf (account : String × GscAccountCredential) : GscAccountSummary :=
  ⟨account.1, account.2.clientId, account.2.clientSecret.isSome⟩

section Map

variable (order : String → String → Bool)

def summaries (accounts : GscAccounts) : List GscAccountSummary :=
  (accounts.rows.insertionSort fun a b => order a.1 b.1).map summaryOf

def outcome (accounts : GscAccounts) (accountName : String) : UpsertOutcome :=
  if (accounts.get accountName).isSome then .replaced else .created

def GscAccounts.assign (accounts : GscAccounts) (accountName : String)
    (credential : GscAccountCredential) : GscAccounts :=
  accounts.alter accountName credential fun _ => credential

def GscAccounts.remove (accounts : GscAccounts) (accountName : String) : GscAccounts :=
  accounts.delete fun account => account.1 = accountName

/-- What the calls mean: a plain map. -/
def accountMap : SequentialSpec GscAccounts GscAccountCall GscAccountResult where
  apply
    | .upsert accountName credential, accounts =>
      (accounts.assign accountName credential, .upserted (outcome accounts accountName))
    | .delete accountName, accounts =>
      (accounts.remove accountName, .deleted (accounts.get accountName).isSome)
    | .getCredential accountName, accounts => (accounts, .credential (accounts.get accountName))
    | .listAccounts, accounts => (accounts, .listing (summaries order accounts))

end Map

section Disk

/-- A call is about to `get` the organization, or has it and is about to `update` it. -/
inductive DiskCallStage where
  | get
  | update (fetched : OrgConfig)
  deriving DecidableEq

/-- `org.gsc_accounts = …`, on a copy. -/
def OrgConfig.withAccounts (org : OrgConfig) (accounts : GscAccounts) : OrgConfig :=
  { org with gscAccounts := accounts }

@[simp] theorem OrgConfig.withAccounts_gscAccounts {org : OrgConfig} {accounts : GscAccounts} :
    (org.withAccounts accounts).gscAccounts = accounts := rfl

/-- What a call makes of the organization it has read, where it writes one back. -/
def editAccounts (org : OrgConfig) : GscAccountCall → Option (OrgConfig × GscAccountResult)
  | .upsert accountName credential =>
    some (org.withAccounts (GscAccounts.assign org.gscAccounts accountName credential),
      .upserted (outcome org.gscAccounts accountName))
  | .delete accountName =>
    if (org.gscAccounts.get accountName).isSome then
      some (org.withAccounts (GscAccounts.remove org.gscAccounts accountName), .deleted true)
    else none
  | .getCredential _ | .listAccounts => none

/-- What a call returns that only reads. -/
def readAccounts (order : String → String → Bool) (org : OrgConfig) :
    GscAccountCall → GscAccountResult
  | .getCredential accountName => .credential (org.gscAccounts.get accountName)
  | .listAccounts => .listing (summaries order org.gscAccounts)
  | .upsert _ _ | .delete _ => .deleted false

/-- How a call ends when there is no such organization. A lookup is fail-soft. -/
def unknownOrg : GscAccountCall → GscAccountResult
  | .getCredential _ => .credential none
  | .upsert _ _ | .delete _ | .listAccounts => .keyError

/-- `DiskGscAccountStore`, for the accounts of one organization. -/
def diskGscAccountStore (order : String → String → Bool) (orgId : String) :
    ConcurrentObject Configs DiskCallStage GscAccountCall GscAccountResult Unit where
  start _ := .get
  step _ call configs
    | .get =>
      match configs.read orgId with
      | .error _ => (configs, .inr (unknownOrg call))
      | .ok org =>
        match editAccounts org call with
        | some _ => (configs, .inl (.update org))
        | none => (configs, .inr (readAccounts order org call))
    | .update org =>
      match editAccounts org call with
      | none => (configs, .inr (readAccounts order org call))
      | some (edited, result) =>
        match configs.apply (.update edited) with
        | .ok configs => (configs, .inr result)
        | .error _ => (configs, .inr .keyError)

/-- No other write got in between the `get` of the call and its `update`. -/
def Undisturbed (orgId : String) (configs : Configs) (_ : GscAccountCall) : DiskCallStage → Prop
  | .get => True
  | .update fetched => configs.get orgId = some fetched

instance (orgId : String) (configs : Configs) (call : GscAccountCall) :
    DecidablePred (Undisturbed orgId configs call)
  | .get => isTrue trivial
  | .update fetched => inferInstanceAs (Decidable (configs.get orgId = some fetched))

/-- The organization has these accounts and its other settings, and the other organizations
are as they were. -/
structure DiskHolds (org : OrgConfig) (first : Configs) (configs : Configs)
    (accounts : GscAccounts) : Prop where
  own : configs.get org.orgId = some (org.withAccounts accounts)
  others : ∀ orgId, orgId ≠ org.orgId → configs.get orgId = first.get orgId

variable {order : String → String → Bool} {org : OrgConfig} {first configs : Configs}
  {accounts : GscAccounts} {call : GscAccountCall}

theorem remove_of_absent {accountName : String} (absent : accounts.get accountName = none) :
    accounts.remove accountName = accounts := by
  refine Table.delete_of_absent fun account listed => ?_
  exact decide_eq_false
    (Table.find?_eq_none.mp (Option.map_eq_none_iff.mp absent) account listed)

theorem editAccounts_some (order : String → String → Bool) {edited : OrgConfig}
    {result : GscAccountResult} (h : editAccounts org call = some (edited, result)) :
    edited = org.withAccounts ((accountMap order).apply call org.gscAccounts).1 ∧
      result = ((accountMap order).apply call org.gscAccounts).2 := by
  cases call with
  | upsert accountName credential =>
    cases h
    exact ⟨rfl, rfl⟩
  | delete accountName =>
    rw [editAccounts] at h
    split at h
    · next present =>
      cases h
      exact ⟨rfl, congrArg _ present.symm⟩
    · cases h
  | getCredential _ | listAccounts => cases h

theorem editAccounts_none (order : String → String → Bool) (h : editAccounts org call = none) :
    (accountMap order).apply call org.gscAccounts =
      (org.gscAccounts, readAccounts order org call) := by
  cases call with
  | upsert accountName credential => cases h
  | delete accountName =>
    rw [editAccounts] at h
    split at h
    · cases h
    · next absent =>
      have gone := remove_of_absent (Option.not_isSome_iff_eq_none.mp absent)
      change (GscAccounts.remove org.gscAccounts accountName, GscAccountResult.deleted _) = _
      rw [gone, Bool.eq_false_iff.mpr absent]
      rfl
  | getCredential _ | listAccounts => rfl

theorem DiskHolds.read (holds : DiskHolds org first configs accounts) :
    configs.read org.orgId = .ok (org.withAccounts accounts) := by
  rw [Configs.read, holds.own]

theorem step_get (holds : DiskHolds org first configs accounts) :
    (diskGscAccountStore order org.orgId).step () call configs .get =
      match editAccounts (org.withAccounts accounts) call with
      | some _ => (configs, .inl (.update (org.withAccounts accounts)))
      | none => (configs, .inr (readAccounts order (org.withAccounts accounts) call)) := by
  simp only [diskGscAccountStore, holds.read]

theorem step_update (order : String → String → Bool)
    (holds : DiskHolds org first configs accounts) {edited : OrgConfig}
    {result : GscAccountResult}
    (edit : editAccounts (org.withAccounts accounts) call = some (edited, result)) :
    ∃ configs', (diskGscAccountStore order org.orgId).step () call configs
        (.update (org.withAccounts accounts)) = (configs', .inr result) ∧
      DiskHolds org first configs' ((accountMap order).apply call accounts).1 := by
  obtain ⟨rfl, -⟩ := editAccounts_some order edit
  have applied := Configs.apply_update configs
    ((org.withAccounts accounts).withAccounts ((accountMap order).apply call accounts).1) holds.own
  refine ⟨_, ?_, (Configs.get_apply applied).trans (if_pos rfl), fun orgId other => ?_⟩
  · simp only [diskGscAccountStore, edit, OrgConfig.withAccounts_gscAccounts, applied]
  · exact (Configs.get_apply_of_ne applied other).trans (holds.others orgId other)

theorem diskGscAccountStore_atomic :
    (diskGscAccountStore order org.orgId).Atomic (accountMap order) (DiskHolds org first)
      (Undisturbed org.orgId) where
  goesOn _ call configs stage accounts configs' stage' holds undisturbed took := by
    cases stage with
    | get =>
      rw [step_get holds] at took
      split at took
      · cases took
        exact holds
      · cases took
    | update fetched =>
      obtain rfl := Option.some.inj (holds.own.symm.trans undisturbed)
      cases edit : editAccounts (org.withAccounts accounts) call with
      | none =>
        simp only [diskGscAccountStore, edit] at took
        cases took
      | some written =>
        obtain ⟨configs'', stepped, -⟩ := step_update order holds edit
        cases stepped.symm.trans took
  returns _ call configs stage accounts configs' result holds undisturbed took := by
    cases stage with
    | get =>
      rw [step_get holds] at took
      split at took
      · cases took
      · next edit =>
        cases took
        have same : (accountMap order).apply call accounts = (accounts, _) :=
          editAccounts_none order edit
        rw [same]
        exact ⟨rfl, holds⟩
    | update fetched =>
      obtain rfl := Option.some.inj (holds.own.symm.trans undisturbed)
      cases edit : editAccounts (org.withAccounts accounts) call with
      | none =>
        simp only [diskGscAccountStore, edit] at took
        cases took
        have same : (accountMap order).apply call accounts = (accounts, _) :=
          editAccounts_none order edit
        rw [same]
        exact ⟨rfl, holds⟩
      | some written =>
        obtain ⟨configs'', stepped, after⟩ := step_update order holds edit
        cases stepped.symm.trans took
        exact ⟨(editAccounts_some order edit).2, after⟩

end Disk

section Postgres

inductive CredentialField where
  | refreshToken
  | clientSecret
  deriving DecidableEq

/-- What a ciphertext is bound to, beside the key. -/
structure CredentialContext where
  orgId : String
  accountName : String
  field : CredentialField
  deriving DecidableEq

/-- `GscCredentialCipher`, which takes a nonce for each encryption. -/
structure GscCredentialCipher (ν γ : Type) where
  keyId : String
  encrypt : ν → String → CredentialContext → γ
  decrypt : String → CredentialContext → γ → Option String
  decrypt_encrypt : ∀ nonce text context,
    decrypt keyId context (encrypt nonce text context) = some text

/-- A row of `org_configs`, of which an upsert may add one. -/
structure OrgRow where
  orgId : String
  displayName : String
  llmCreditLimitUsd : ℚ
  deriving DecidableEq

/-- A row of `org_gsc_accounts`. -/
structure GscAccountRow (γ : Type) where
  orgId : String
  accountName : String
  clientId : Option String
  clientSecretCt : Option γ
  refreshTokenCt : γ
  keyId : String

def GscAccountRow.key {γ : Type} (row : GscAccountRow γ) : String × String :=
  (row.orgId, row.accountName)

structure GscDatabase (γ : Type) where
  orgConfigs : Table String OrgRow.orgId
  accounts : Table (String × String) (GscAccountRow.key (γ := γ))

variable {ν γ : Type} (cipher : GscCredentialCipher ν γ) (order : String → String → Bool)

namespace GscAccountRow

/-- The row `upsert` writes, with a nonce for each field. -/
def encrypted (nonces : ν × ν) (orgId accountName : String) (credential : GscAccountCredential) :
    GscAccountRow γ where
  orgId := orgId
  accountName := accountName
  clientId := credential.clientId
  clientSecretCt := credential.clientSecret.map fun secret =>
    cipher.encrypt nonces.2 secret ⟨orgId, accountName, .clientSecret⟩
  refreshTokenCt :=
    cipher.encrypt nonces.1 credential.refreshToken ⟨orgId, accountName, .refreshToken⟩
  keyId := cipher.keyId

/-- The credential `get_credential` makes of a row, if it can be decrypted. -/
def decrypted (row : GscAccountRow γ) : Option GscAccountCredential :=
  match cipher.decrypt row.keyId ⟨row.orgId, row.accountName, .refreshToken⟩ row.refreshTokenCt,
      row.clientSecretCt with
  | none, _ => none
  | some token, none => some ⟨token, row.clientId, none⟩
  | some token, some secretCt =>
    (cipher.decrypt row.keyId ⟨row.orgId, row.accountName, .clientSecret⟩ secretCt).map
      fun secret => ⟨token, row.clientId, some secret⟩

def summary (row : GscAccountRow γ) : GscAccountSummary :=
  ⟨row.accountName, row.clientId, row.clientSecretCt.isSome⟩

end GscAccountRow

namespace GscDatabase

variable (db : GscDatabase γ) (orgId : String)

/-- `_PARENT_ORG_SQL`: an existing row is left as it is. -/
def parentOrg : GscDatabase γ :=
  match db.orgConfigs.insert? ⟨orgId, "Org " ++ orgId, 0⟩ with
  | some orgConfigs => { db with orgConfigs }
  | none => db

/-- `_UPSERT_SQL`, and whether the row is new. -/
def upsertRow (row : GscAccountRow γ) : GscDatabase γ × UpsertOutcome :=
  match db.accounts.insert? row with
  | some accounts => ({ db with accounts }, .created)
  | none =>
    ({ db with
        accounts := db.accounts.update (fun r => r.key = row.key)
          (fun r => { row with orgId := r.orgId, accountName := r.accountName }) fun _ => rfl },
      .replaced)

def orgAccounts : List (GscAccountRow γ) := db.accounts.rows.filter fun row => row.orgId = orgId

end GscDatabase

/-- `PostgresGscAccountStore`: the transaction of each call, and what it makes of the rows. -/
def postgresGscAccountStore (orgId : String) :
    ConcurrentObject (GscDatabase γ) Unit GscAccountCall GscAccountResult (ν × ν) where
  start _ := ()
  step nonces call db _ :=
    match call with
    | .upsert accountName credential =>
      let (db, outcome) := (db.parentOrg orgId).upsertRow
        (.encrypted cipher nonces orgId accountName credential)
      (db, .inr (.upserted outcome))
    | .delete accountName =>
      ({ db with accounts := db.accounts.delete fun row => row.key = (orgId, accountName) },
        .inr (.deleted (db.accounts.find? (orgId, accountName)).isSome))
    | .getCredential accountName =>
      match db.accounts.find? (orgId, accountName) with
      | none => (db, .inr (.credential none))
      | some row =>
        match row.decrypted cipher with
        | some credential => (db, .inr (.credential (some credential)))
        | none => (db, .inr .decryptionError)
    | .listAccounts =>
      (db, .inr (.listing (((db.orgAccounts orgId).map GscAccountRow.summary).insertionSort
        fun a b => order a.accountName b.accountName)))

/-- A row and the account it holds. -/
def HoldsAccount (row : GscAccountRow γ)
    (account : String × GscAccountCredential) : Prop :=
  row.accountName = account.1 ∧ row.decrypted cipher = some account.2

/-- The rows of the organization hold these accounts, and the table of organizations is as
it was. -/
structure PostgresHolds (orgId : String) (orgConfigs : Table String OrgRow.orgId)
    (db : GscDatabase γ) (accounts : GscAccounts) : Prop where
  rows : List.Forall₂ (HoldsAccount cipher) (db.orgAccounts orgId) accounts.rows
  others : db.orgConfigs = orgConfigs

variable {cipher order} {db : GscDatabase γ} {orgId accountName : String}
  {orgConfigs : Table String OrgRow.orgId} {accounts : GscAccounts}
  {credential : GscAccountCredential} {nonces : ν × ν} {call : GscAccountCall}

theorem decrypted_encrypted :
    (GscAccountRow.encrypted cipher nonces orgId accountName credential).decrypted cipher =
      some credential := by
  obtain ⟨refreshToken, clientId, clientSecret⟩ := credential
  rw [GscAccountRow.decrypted, GscAccountRow.encrypted]
  dsimp only
  rw [cipher.decrypt_encrypt]
  cases clientSecret with
  | none => rfl
  | some secret =>
    dsimp only [Option.map_some]
    rw [cipher.decrypt_encrypt, Option.map_some]

variable {row : GscAccountRow γ}

theorem summary_eq (decrypts : row.decrypted cipher = some credential) :
    row.summary = summaryOf (row.accountName, credential) := by
  rw [GscAccountRow.decrypted] at decrypts
  split at decrypts
  · cases decrypts
  · next noSecret =>
    cases decrypts
    rw [GscAccountRow.summary, noSecret]
    rfl
  · next hasSecret =>
    obtain ⟨secret, -, rfl⟩ := Option.map_eq_some_iff.mp decrypts
    rw [GscAccountRow.summary, hasSecret]
    rfl

theorem exists_left_of_forall₂ {α β : Type*} {R : α → β → Prop} {as : List α} {bs : List β}
    (h : List.Forall₂ R as bs) {b : β} (mem : b ∈ bs) : ∃ a ∈ as, R a b := by
  induction h with
  | nil => cases mem
  | cons related _ ih =>
    rcases List.mem_cons.mp mem with rfl | mem
    · exact ⟨_, List.mem_cons_self, related⟩
    · obtain ⟨a, listed, related⟩ := ih mem
      exact ⟨a, List.mem_cons_of_mem _ listed, related⟩

theorem exists_right_of_forall₂ {α β : Type*} {R : α → β → Prop} {as : List α} {bs : List β}
    (h : List.Forall₂ R as bs) {a : α} (mem : a ∈ as) : ∃ b ∈ bs, R a b :=
  exists_left_of_forall₂ (R := flip R) h.flip mem

theorem mem_orgAccounts :
    row ∈ db.orgAccounts orgId ↔ row ∈ db.accounts.rows ∧ row.orgId = orgId := by
  rw [GscDatabase.orgAccounts, List.mem_filter, decide_eq_true_eq]

theorem find?_eq_some_iff :
    db.accounts.find? (orgId, accountName) = some row ↔
      row ∈ db.orgAccounts orgId ∧ row.accountName = accountName := by
  rw [Table.find?_eq_some, mem_orgAccounts, GscAccountRow.key, Prod.mk.injEq, and_assoc]

theorem PostgresHolds.get_of_none (holds : PostgresHolds cipher orgId orgConfigs db accounts)
    (absent : db.accounts.find? (orgId, accountName) = none) :
    accounts.get accountName = none := by
  refine Option.eq_none_iff_forall_ne_some.mpr fun credential found => ?_
  obtain ⟨row, listed, named, -⟩ := exists_left_of_forall₂ holds.rows (Dict.get_eq_some.mp found)
  rw [find?_eq_some_iff.mpr ⟨listed, named⟩] at absent
  cases absent

theorem PostgresHolds.get_of_some (holds : PostgresHolds cipher orgId orgConfigs db accounts)
    (found : db.accounts.find? (orgId, accountName) = some row) :
    ∃ credential, row.decrypted cipher = some credential ∧
      accounts.get accountName = some credential := by
  obtain ⟨listed, rfl⟩ := find?_eq_some_iff.mp found
  obtain ⟨⟨name, credential⟩, held, named, decrypts⟩ := exists_right_of_forall₂ holds.rows listed
  obtain rfl : row.accountName = name := named
  exact ⟨credential, decrypts, Dict.get_eq_some.mpr held⟩

theorem PostgresHolds.isSome_get (holds : PostgresHolds cipher orgId orgConfigs db accounts) :
    (accounts.get accountName).isSome = (db.accounts.find? (orgId, accountName)).isSome := by
  cases found : db.accounts.find? (orgId, accountName) with
  | none =>
    rw [holds.get_of_none found]
    rfl
  | some row =>
    obtain ⟨credential, -, held⟩ := holds.get_of_some found
    rw [held]
    rfl

theorem PostgresHolds.listing (holds : PostgresHolds cipher orgId orgConfigs db accounts) :
    ((db.orgAccounts orgId).map GscAccountRow.summary).insertionSort
      (fun a b => order a.accountName b.accountName) = summaries order accounts := by
  have same : (db.orgAccounts orgId).map GscAccountRow.summary = accounts.rows.map summaryOf := by
    refine List.forall₂_eq_eq_eq ▸ List.rel_map (fun row account held => ?_) holds.rows
    rw [summary_eq held.2, held.1]
  rw [same, summaries]
  exact (List.map_insertionSort (fun a b => order a.1 b.1)
    (fun a b => order a.accountName b.accountName) summaryOf _ fun _ _ _ _ => Iff.rfl).symm

theorem PostgresHolds.delete (holds : PostgresHolds cipher orgId orgConfigs db accounts) :
    PostgresHolds cipher orgId orgConfigs
      { db with accounts := db.accounts.delete fun row => row.key = (orgId, accountName) }
      (accounts.remove accountName) where
  rows := by
    have same : (db.accounts.delete fun row => row.key = (orgId, accountName)).rows.filter
        (fun row => row.orgId = orgId) =
          (db.orgAccounts orgId).filter fun row => !decide (row.accountName = accountName) := by
      rw [Table.delete, GscDatabase.orgAccounts, List.filter_filter, List.filter_filter]
      refine List.filter_congr fun row _ => ?_
      by_cases own : row.orgId = orgId <;> simp [GscAccountRow.key, own]
    change List.Forall₂ _ ((db.accounts.delete _).rows.filter _) _
    rw [same]
    refine List.rel_filter (fun row account held => ?_) holds.rows
    simp [held.1]
  others := holds.others

theorem parentOrg_eq (existing : (db.orgConfigs.find? orgId).isSome) : db.parentOrg orgId = db := by
  rw [GscDatabase.parentOrg, Table.insert?_eq_none.mpr existing]

theorem rows_assign_of_none (absent : accounts.get accountName = none) :
    (accounts.assign accountName credential).rows =
      accounts.rows ++ [(accountName, credential)] := by
  rw [GscAccounts.assign, Dict.alter]
  split
  · next inserted => exact (Table.insert?_eq_some.mp inserted).2
  · next taken =>
    have taken := Table.insert?_eq_none.mp taken
    rw [Option.map_eq_none_iff.mp absent] at taken
    cases taken

theorem rows_assign_of_some (present : (accounts.get accountName).isSome) :
    (accounts.assign accountName credential).rows = accounts.rows.map fun account =>
        if account.1 = accountName then (account.1, credential) else account := by
  rw [GscAccounts.assign, Dict.alter]
  split
  · next inserted =>
    have absent := (Table.insert?_eq_some.mp inserted).1
    rw [Dict.get, absent] at present
    cases present
  · next taken =>
    rw [Table.update]
    simp only [decide_eq_true_eq]

theorem PostgresHolds.upsert (holds : PostgresHolds cipher orgId orgConfigs db accounts)
    (own : row.orgId = orgId)
    (decrypts : row.decrypted cipher = some credential) :
    (db.upsertRow row).2 = outcome accounts row.accountName ∧
      PostgresHolds cipher orgId orgConfigs (db.upsertRow row).1
        (accounts.assign row.accountName credential) := by
  have key : row.key = (orgId, row.accountName) := by rw [GscAccountRow.key, own]
  have present : (accounts.get row.accountName).isSome =
      (db.accounts.find? (orgId, row.accountName)).isSome := holds.isSome_get
  cases inserted : db.accounts.insert? row with
  | some table =>
    obtain ⟨absent, rows⟩ := Table.insert?_eq_some.mp inserted
    rw [key] at absent
    rw [absent, Option.isSome_none] at present
    rw [GscDatabase.upsertRow, inserted]
    refine ⟨by rw [outcome, present]; rfl, ?_, holds.others⟩
    rw [rows_assign_of_none (Option.not_isSome_iff_eq_none.mp (Bool.eq_false_iff.mp present))]
    have added : table.rows.filter (fun row => decide (row.orgId = orgId)) =
        db.orgAccounts orgId ++ [row] := by
      rw [rows, List.filter_append, List.filter_singleton, own, decide_eq_true rfl]
      rfl
    change List.Forall₂ _ (table.rows.filter _) _
    rw [added]
    exact List.rel_append holds.rows (.cons ⟨rfl, decrypts⟩ .nil)
  | none =>
    have taken := Table.insert?_eq_none.mp inserted
    rw [key] at taken
    rw [taken] at present
    rw [GscDatabase.upsertRow, inserted]
    refine ⟨by rw [outcome, present]; rfl, ?_, holds.others⟩
    rw [rows_assign_of_some present]
    have kept : ∀ r : GscAccountRow γ, (if decide (r.key = row.key) = true then
        { row with orgId := r.orgId, accountName := r.accountName } else r).orgId = r.orgId := by
      intro r
      split <;> rfl
    change List.Forall₂ _ (List.filter _ (List.map _ db.accounts.rows)) _
    rw [List.filter_map]
    simp only [Function.comp_def, kept]
    refine List.rel_map ?_ ((List.forall₂_and_left _ _).mpr
      ⟨fun r listed => (mem_orgAccounts.mp listed).2, holds.rows⟩)
    rintro r account ⟨ofOrg, named, held⟩
    have sameKey : r.key = row.key ↔ account.1 = row.accountName := by
      rw [key, GscAccountRow.key, ofOrg, named, Prod.mk.injEq, and_iff_right rfl]
    simp only [decide_eq_true_eq, sameKey]
    split
    · next same =>
      have replaced : { row with orgId := r.orgId, accountName := r.accountName } = row := by
        rw [ofOrg, named, same, ← own]
      rw [replaced]
      exact ⟨same.symm, decrypts⟩
    · exact ⟨named, held⟩

theorem postgresGscAccountStore_atomic (existing : (orgConfigs.find? orgId).isSome) :
    (postgresGscAccountStore cipher order orgId).Atomic (accountMap order)
      (PostgresHolds cipher orgId orgConfigs) (fun _ _ _ => True) where
  goesOn nonces call db _ accounts db' state' holds _ took := by
    cases call with
    | getCredential accountName =>
      simp only [postgresGscAccountStore] at took
      split at took
      · cases took
      · split at took <;> cases took
    | upsert _ _ | delete _ | listAccounts => cases took
  returns nonces call db _ accounts db' result holds _ took := by
    cases call with
    | upsert accountName credential =>
      cases took
      rw [parentOrg_eq (holds.others ▸ existing)]
      have decrypts : (GscAccountRow.encrypted cipher nonces orgId accountName
          credential).decrypted cipher = some credential := decrypted_encrypted
      obtain ⟨told, after⟩ := holds.upsert rfl decrypts
      exact ⟨congrArg _ told, after⟩
    | delete accountName =>
      cases took
      exact ⟨congrArg _ holds.isSome_get.symm, holds.delete⟩
    | getCredential accountName =>
      simp only [postgresGscAccountStore] at took
      split at took
      · next absent =>
        cases took
        exact ⟨congrArg _ (holds.get_of_none absent).symm, holds⟩
      · next row found =>
        obtain ⟨credential, decrypts, held⟩ := holds.get_of_some found
        rw [decrypts] at took
        cases took
        exact ⟨congrArg _ held.symm, holds⟩
    | listAccounts =>
      cases took
      exact ⟨congrArg _ holds.listing, holds⟩

end Postgres

/-- The calls of both stores happen as if one after the other: of the one over the
database always, and of the one on disk where each update meets the organization that its
call has read. -/
theorem gscAccounts_linearizable (order : String → String → Bool) :
    (∀ (org : OrgConfig) (configs : Configs) (events : List (PoolEvent GscAccountCall Unit)),
      configs.get org.orgId = some org →
      (diskGscAccountStore order org.orgId).pool.machine.Meets
        (ConcurrentObject.Guarded (Undisturbed org.orgId)) (ThreadPool.start configs) events →
      (diskGscAccountStore order org.orgId).Linearizable (accountMap order)
        (DiskHolds org configs) org.gscAccounts configs events) ∧
    ∀ {ν γ : Type} (cipher : GscCredentialCipher ν γ) (orgId : String) (db : GscDatabase γ)
      (accounts : GscAccounts) (events : List (PoolEvent GscAccountCall (ν × ν))),
      (db.orgConfigs.find? orgId).isSome →
      PostgresHolds cipher orgId db.orgConfigs db accounts →
      (postgresGscAccountStore cipher order orgId).Linearizable (accountMap order)
        (PostgresHolds cipher orgId db.orgConfigs) accounts db events := by
  constructor
  · intro org configs events stored undisturbed
    exact diskGscAccountStore_atomic.linearizable ⟨stored, fun _ _ => rfl⟩ undisturbed
  · intro ν γ cipher orgId db accounts events existing holds
    refine (postgresGscAccountStore_atomic existing).linearizable holds ?_
    refine Machine.meets_iff.mpr fun pre event post s _ _ => ?_
    cases event with
    | call op => trivial
    | act i choice => exact fun _ _ _ _ => trivial

def acme : OrgConfig := { orgId := "acme", displayName := "Acme" }

def acmeConfigs : Configs := Configs.assign .empty acme

/-- A cipher that hides nothing. -/
def plainCipher : GscCredentialCipher Unit String where
  keyId := "k"
  encrypt _ text _ := text
  decrypt _ _ text := some text
  decrypt_encrypt _ _ _ := rfl

def acmeDatabase : GscDatabase String where
  orgConfigs := ⟨[⟨"acme", "Acme", 100⟩], List.nodup_singleton _⟩
  accounts := .empty

def anyOrder (_ _ : String) : Bool := true

/-- An account that is added and one that is deleted, at the same time in the database. -/
theorem gscAccounts_linearizable_acme :
    (diskGscAccountStore anyOrder acme.orgId).Linearizable (accountMap anyOrder)
        (DiskHolds acme acmeConfigs) acme.gscAccounts acmeConfigs
        [.call (.upsert "a" ⟨"t", none, none⟩), .act 0 (), .act 0 (), .call (.delete "a"),
          .act 1 (), .act 1 ()] ∧
      (postgresGscAccountStore plainCipher anyOrder "acme").Linearizable (accountMap anyOrder)
        (PostgresHolds plainCipher "acme" acmeDatabase.orgConfigs) .empty acmeDatabase
        [.call (.upsert "a" ⟨"t", none, none⟩), .call (.delete "b"), .act 1 ((), ()),
          .act 0 ((), ())] :=
  ⟨(gscAccounts_linearizable anyOrder).1 acme acmeConfigs _ rfl (by decide),
    (gscAccounts_linearizable anyOrder).2 plainCipher "acme" acmeDatabase .empty _ rfl
      ⟨.nil, rfl⟩⟩

theorem isSome_get_assign {accounts : GscAccounts} {accountName other : String}
    {credential : GscAccountCredential}
    (present : other = accountName ∨ (accounts.get other).isSome) :
    ((accounts.assign accountName credential).get other).isSome := by
  rw [GscAccounts.assign, Dict.get_alter]
  split
  · rfl
  · next apart => exact present.resolve_left apart

/-- Two accounts are added on disk, and the organization is read for both before it is
written for either. -/
theorem disk_upsert_lost : ¬∀ (order : String → String → Bool) (org : OrgConfig) (configs : Configs)
      (events : List (PoolEvent GscAccountCall Unit)), configs.get org.orgId = some org →
      (diskGscAccountStore order org.orgId).Linearizable (accountMap order)
        (DiskHolds org configs) org.gscAccounts configs events := by
  intro linearizable
  let events : List (PoolEvent GscAccountCall Unit) :=
    [.call (.upsert "a" ⟨"t", none, none⟩), .call (.upsert "b" ⟨"t", none, none⟩),
      .act 0 (), .act 1 (), .act 0 (), .act 1 ()]
  have final : ((diskGscAccountStore anyOrder "acme").pool.machine.run
      (ThreadPool.start acmeConfigs) events).map (fun s => (s.threads.map ObjectCall.op,
        s.threads.map ObjectCall.state, (s.shared.get "acme").map fun org =>
          (org.gscAccounts.get "a").isSome)) =
      some ([.upsert "a" ⟨"t", none, none⟩, .upsert "b" ⟨"t", none, none⟩],
        [.inr (.upserted .created), .inr (.upserted .created)], some false) := by
    decide
  obtain ⟨s, run, seen⟩ := Option.map_eq_some_iff.mp final
  obtain ⟨ops, states, lost⟩ : s.threads.map ObjectCall.op = _ ∧
      s.threads.map ObjectCall.state = _ ∧ (s.shared.get "acme").map _ = _ := by
    simpa only [Prod.mk.injEq] using seen
  obtain ⟨order, accounts, lin, holds⟩ := linearizable anyOrder acme acmeConfigs events rfl s run
  obtain ⟨first, rest, threads, op, -⟩ := List.map_eq_cons_iff.mp ops
  rw [threads, List.map_cons, List.cons.injEq] at states
  have known : s.threads[0]? = some first := by rw [threads, List.getElem?_cons_zero]
  -- Neither call takes an account away, so the first one's is there in any order of the two.
  have keep : ∀ call ∈ s.threads, ∀ accounts : GscAccounts, (accounts.get "a").isSome →
      (((accountMap anyOrder).apply call.op accounts).1.get "a").isSome := by
    intro call listed accounts present
    have upsert : call.op ∈ s.threads.map ObjectCall.op := List.mem_map_of_mem listed
    rw [ops, List.mem_cons, List.mem_singleton] at upsert
    rcases upsert with upsert | upsert <;> rw [upsert]
    · exact isSome_get_assign (.inr present)
    · exact isSome_get_assign (.inr present)
  have present : (accounts.get "a").isSome := by
    refine lin.explains.holds_of_mem (P := fun accounts => (accounts.get "a").isSome) keep known
      (fun accounts => ?_) (lin.complete 0 first _ known states.1)
    rw [op]
    exact isSome_get_assign (.inl rfl)
  have own : s.shared.get "acme" = some (acme.withAccounts accounts) := holds.own
  rw [own, Option.map_some, OrgConfig.withAccounts_gscAccounts, present] at lost
  cases lost

end Rankuno.OrgConfigs
