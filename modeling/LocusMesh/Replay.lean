import Mathlib
import LocusMesh.Attestation

/-! The SQLite nonce store behind the replay port, statement by statement. A statement
that raises changes nothing. -/
namespace LocusMesh

/-- One row of `verified_nonce`. -/
@[ext] structure NonceRow where
  nonce : String
  requestCommitment : String
  attestationDigest : String
  deriving DecidableEq

/-- A database file: its journal mode and, once created, its table. -/
structure Database where
  wal : Bool
  verifiedNonce : Option (List NonceRow)

/-- What lies behind a file path: the parent directory and the database. -/
structure Disk where
  parent : Bool
  database : Option Database

def Disk.table (disk : Disk) : Option (List NonceRow) := disk.database.bind Database.verifiedNonce

def Disk.rows (disk : Disk) : List NonceRow := disk.table.getD []

abbrev Statement := Disk → Except PyError Disk

def makeParent : Statement := fun disk => .ok {disk with parent := true}

def openDatabase : Statement := fun disk =>
  if disk.parent then .ok {disk with database := some (disk.database.getD ⟨false,none⟩)}
  else .error .sqliteError

def journalModeWal : Statement := fun disk =>
  match disk.database with
  | none => .error .sqliteError
  | some db => .ok {disk with database := some {db with wal := true}}

def createTable : Statement := fun disk =>
  match disk.database with
  | none => .error .sqliteError
  | some db =>
    .ok {disk with database := some {db with verifiedNonce := some (db.verifiedNonce.getD [])}}

def insertOrIgnore (row : NonceRow) (disk : Disk) : Except PyError (ℕ × Disk) :=
  match disk.database with
  | none => .error .sqliteError
  | some db =>
    match db.verifiedNonce with
    | none => .error .sqliteError
    | some rows =>
      if row.nonce ∈ rows.map NonceRow.nonce then .ok (0,disk)
      else .ok (1,{disk with database := some {db with verifiedNonce := some (rows ++ [row])}})

/-- Atomic SQLite nonce store with lazy file creation. -/
structure SQLiteReplayStore where
  path : String
  connection : Bool

namespace SQLiteReplayStore

def create (path : String) : SQLiteReplayStore := ⟨path,false⟩

def connectStatements (path : String) : List Statement :=
  (if path ≠ ":memory:" then [makeParent] else []) ++ [openDatabase,journalModeWal,createTable]

def runStatements : List Statement → Disk → Except PyError Unit × Disk
  | [], disk => (.ok (),disk)
  | statement :: rest, disk =>
    match statement disk with
    | .error e => (.error e,disk)
    | .ok disk' => runStatements rest disk'

def connect (store : SQLiteReplayStore) (disk : Disk) :
    Except PyError Unit × (SQLiteReplayStore × Disk) :=
  if store.connection then (.ok (),(store,disk))
  else
    match runStatements (connectStatements store.path) disk with
    | (.error e,disk') => (.error e,(store,disk'))
    | (.ok _,disk') => (.ok (),({store with connection := true},disk'))

def recordIfNew (nonce requestCommitment attestationDigest : String)
    (s : SQLiteReplayStore × Disk) : Except PyError Bool × (SQLiteReplayStore × Disk) :=
  match connect s.1 s.2 with
  | (.error e,s') => (.error e,s')
  | (.ok _,(store,disk)) =>
    match insertOrIgnore ⟨nonce,requestCommitment,attestationDigest⟩ disk with
    | .error e => (.error e,(store,disk))
    | .ok (rowcount,disk') => (.ok (rowcount == 1),(store,disk'))

def close (store : SQLiteReplayStore) : SQLiteReplayStore := {store with connection := false}

def port : ReplayStore (SQLiteReplayStore × Disk) := ⟨recordIfNew⟩

end SQLiteReplayStore

/-- A table that exists is kept as it is by every statement of `_connect`. -/
theorem connectStatement_table {path : String} {statement : Statement}
    (h : statement ∈ SQLiteReplayStore.connectStatements path) {disk disk' : Disk}
    (hok : statement disk = .ok disk') : disk'.rows = disk.rows ∧
      (disk.table.isSome = true → disk'.table.isSome = true) := by
  obtain ⟨parent,database⟩ := disk
  have hcases : statement = makeParent ∨ statement = openDatabase ∨ statement = journalModeWal ∨
      statement = createTable := by
    unfold SQLiteReplayStore.connectStatements at h
    split at h <;> simp_all
  rcases hcases with rfl | rfl | rfl | rfl
  · cases hok
    exact ⟨rfl,id⟩
  · unfold openDatabase at hok
    split at hok
    · cases hok
      cases database <;> simp [Disk.rows,Disk.table]
    · cases hok
  · cases database with
    | none => cases hok
    | some db =>
      cases hok
      exact ⟨rfl,id⟩
  · cases database with
    | none => cases hok
    | some db =>
      cases hok
      cases hdb : db.verifiedNonce <;> simp [Disk.rows,Disk.table,hdb]

theorem insertOrIgnore_cases (row : NonceRow) {disk : Disk} (h : disk.table.isSome = true) :
    (row.nonce ∈ disk.rows.map NonceRow.nonce ∧ insertOrIgnore row disk = .ok (0,disk)) ∨
    (row.nonce ∉ disk.rows.map NonceRow.nonce ∧ ∃ disk', insertOrIgnore row disk = .ok (1,disk') ∧
      disk'.rows = disk.rows ++ [row] ∧ disk'.table.isSome = true) := by
  obtain ⟨parent,database⟩ := disk
  cases database with
  | none => simp [Disk.table] at h
  | some db =>
    cases hdb : db.verifiedNonce with
    | none => simp [Disk.table,hdb] at h
    | some rows =>
      have hrows : Disk.rows ⟨parent,some db⟩ = rows := by simp [Disk.rows,Disk.table,hdb]
      rw [hrows]
      by_cases hmem : row.nonce ∈ rows.map NonceRow.nonce
      · exact .inl ⟨hmem,by simp only [insertOrIgnore,hdb,if_pos hmem]⟩
      · refine .inr ⟨hmem,⟨parent,some ⟨db.wal,some (rows ++ [row])⟩⟩,?_,?_,?_⟩
        · simp only [insertOrIgnore,hdb,if_neg hmem]
        · simp [Disk.rows,Disk.table]
        · simp [Disk.table]

theorem insertOrIgnore_table {row : NonceRow} {disk disk' : Disk} {n : ℕ}
    (h : insertOrIgnore row disk = .ok (n,disk')) : disk.table.isSome = true := by
  unfold insertOrIgnore at h
  cases hdb : disk.database with
  | none => simp [hdb] at h
  | some db =>
    cases htable : db.verifiedNonce with
    | none => simp [hdb,htable] at h
    | some rows => simp [Disk.table,hdb,htable]

theorem recordIfNew_open {store : SQLiteReplayStore} {disk : Disk}
    (hopen : store.connection = true) (htable : disk.table.isSome = true)
    (nonce requestCommitment attestationDigest : String) :
    ∃ fresh, (SQLiteReplayStore.recordIfNew nonce requestCommitment attestationDigest
      (store,disk)).1 = .ok fresh := by
  simp only [SQLiteReplayStore.recordIfNew,SQLiteReplayStore.connect,hopen,if_true]
  rcases insertOrIgnore_cases ⟨nonce,requestCommitment,attestationDigest⟩ htable with
    ⟨_,hinsert⟩ | ⟨_,disk',hinsert,_⟩
  · exact ⟨_,by rw [hinsert]⟩
  · exact ⟨_,by rw [hinsert]⟩

theorem recordIfNew_seen {store : SQLiteReplayStore} {disk : Disk} {nonce : String}
    (hopen : store.connection = true) (hseen : nonce ∈ disk.rows.map NonceRow.nonce)
    (requestCommitment attestationDigest : String) :
    SQLiteReplayStore.recordIfNew nonce requestCommitment attestationDigest (store,disk) =
      (.ok false,(store,disk)) := by
  have htable : disk.table.isSome = true := by
    cases h : disk.table with
    | none => simp [Disk.rows,h] at hseen
    | some rows => rfl
  rcases insertOrIgnore_cases ⟨nonce,requestCommitment,attestationDigest⟩ htable with ⟨_,hinsert⟩ | ⟨hnew,_⟩
  · simp only [SQLiteReplayStore.recordIfNew,SQLiteReplayStore.connect,hopen,if_true,hinsert]
    rfl
  · exact absurd hseen hnew

/-- Opening a file-backed store succeeds and leaves a table with the rows there were. -/
theorem runStatements_connect {path : String} (hpath : path ≠ ":memory:") (disk : Disk) :
    ∃ disk', SQLiteReplayStore.runStatements (SQLiteReplayStore.connectStatements path) disk =
      (.ok (),disk') ∧ disk'.rows = disk.rows ∧ disk'.table.isSome = true := by
  obtain ⟨parent,database⟩ := disk
  let opened : Database := database.getD ⟨false,none⟩
  refine ⟨⟨true,some ⟨true,some (opened.verifiedNonce.getD [])⟩⟩,?_,?_,?_⟩
  · simp only [SQLiteReplayStore.connectStatements,ne_eq,hpath,not_false_eq_true,
      List.cons_append,List.nil_append,SQLiteReplayStore.runStatements,makeParent,openDatabase,
      journalModeWal,createTable,if_true,opened]
  · cases database with
    | none => rfl
    | some db => cases hdb : db.verifiedNonce <;> simp [opened,Disk.rows,Disk.table,hdb]
  · simp [Disk.table]

end LocusMesh
