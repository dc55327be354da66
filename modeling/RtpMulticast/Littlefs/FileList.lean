import RtpMulticast.Littlefs.KeyValues
import RtpMulticast.Support.TableFill
import RtpMulticast.Support.Text

/-!
# The list of the files

`ef_print_env` writes an entry of the caller's table for each file that `lfs_dir_read`
returns.  Its parameter has 20 entries, and the loop does not compare the count with
that: the files behind the twentieth are written behind the table.
-/

namespace RtpMulticast

open ByteBuffer CStrings Text TableFill

/-! ## The function -/

/-- `struct lfs_info` of an entry, as far as it is read. -/
structure LfsInfo where
  size : UInt32
  name : CText

/-- `EF_LFS_NAME_MAX`. -/
def efLfsNameMax : ℕ := 32

/-- `EfLfsInfo_t`. -/
structure EfLfsInfo where
  size : UInt32
  name : Bytes
  length_name : name.length = efLfsNameMax + 1

/-- The results of `lfs_dir_open` and `lfs_dir_read`: the entries, and behind them 0 or
an error. -/
structure LfsDir where
  openRet : ℤ
  entries : List LfsInfo
  lastRet : ℤ
  lastRet_nonpos : lastRet ≤ 0

/-- The name of a file with its terminator. -/
def copyName (info : LfsInfo) (name : Bytes) : Except Fault Bytes := do
  let name ← strncpy name info.name efLfsNameMax
  storeU8 name efLfsNameMax 0

theorem length_of_copyName {info : LfsInfo} {name name' : Bytes}
    (h : copyName info name = .ok name') : name'.length = name.length := by
  obtain ⟨name₁, hcopy, hzero⟩ := bind_eq_ok.mp h
  rw [length_of_storeU8 hzero, length_of_copyIn hcopy]

/-- The three writes to an entry of the table. -/
def EfLfsInfo.put (file : EfLfsInfo) (info : LfsInfo) : Except Fault EfLfsInfo :=
  match h : copyName info file.name with
  | .error fault => .error fault
  | .ok name => .ok ⟨info.size, name, (length_of_copyName h).trans file.length_name⟩

/-- The loop, for a caller's table of any size. -/
def efPrintLoop {capacity : ℕ} : List LfsInfo → Vector EfLfsInfo capacity → UInt32 →
    Except Fault (Vector EfLfsInfo capacity × UInt32)
  | [], fileList, nbFiles => .ok (fileList, nbFiles)
  | info :: entries, fileList, nbFiles =>
      if info.name.1 = ascii "." ∨ info.name.1 = ascii ".." then
        efPrintLoop entries fileList nbFiles
      else if h : nbFiles.toNat < capacity then do
        let file ← fileList[nbFiles.toNat].put info
        efPrintLoop entries (fileList.set nbFiles.toNat file h) (nbFiles + 1)
      else .error .outOfBounds

/-- `ef_print_env`; `nbFiles` is what the caller's counter holds. -/
def efPrintEnv {capacity : ℕ} (dir : LfsDir) (fileList : Vector EfLfsInfo capacity)
    (nbFiles : UInt32) (ef : EasyFlash) :
    Except Fault (EfErrCode × Vector EfLfsInfo capacity × UInt32 × EasyFlash) := do
  if ¬ ef.lfs then
    return (.envInitFailed, fileList, nbFiles, ef)
  let ef := ef.giantLock
  if dir.openRet ≠ 0 then
    let ef := { ef with errno := -dir.openRet }
    return (.readErr, fileList, nbFiles, ef.giantUnlock)
  let (fileList, nbFiles) ← efPrintLoop dir.entries fileList 0
  let ef := if dir.lastRet < 0 then { ef with errno := -dir.lastRet } else ef
  return (.noErr, fileList, nbFiles, ef.giantUnlock)

/-! ## One entry -/

/-- The entry that is written for a file, whatever was there. -/
def reported (info : LfsInfo) : EfLfsInfo where
  size := info.size
  name := info.name.1.take efLfsNameMax ++
    List.replicate (efLfsNameMax - info.name.1.length) 0 ++ [0]
  length_name := by
    rw [List.length_append, List.length_append, List.length_take,
      List.length_replicate, List.length_singleton]
    omega

theorem copyName_eq (info : LfsInfo) {name : Bytes}
    (h : name.length = efLfsNameMax + 1) :
    copyName info name = .ok (reported info).name := by
  obtain ⟨front, rest, rfl, hfront⟩ :=
    exists_append_of_le (by omega : efLfsNameMax ≤ name.length)
  rw [List.length_append] at h
  obtain ⟨last, hlast⟩ := List.length_eq_one_iff.mp (by omega : rest.length = 1)
  have hdata : (info.name.1.take efLfsNameMax ++
      List.replicate (efLfsNameMax - info.name.1.length) 0).length = efLfsNameMax := by
    rw [List.length_append, List.length_take, List.length_replicate]
    omega
  have hcopy : strncpy (front ++ [last]) info.name efLfsNameMax =
      .ok (info.name.1.take efLfsNameMax ++
        List.replicate (efLfsNameMax - info.name.1.length) 0 ++ [last]) :=
    copyIn_append [] front [last] _ (hdata.trans hfront.symm)
  rw [hlast, copyName, hcopy, ok_bind, storeU8_front hdata, List.append_nil, reported]

theorem EfLfsInfo.put_eq (file : EfLfsInfo) (info : LfsInfo) :
    file.put info = .ok (reported info) := by
  have hcopy := copyName_eq info file.length_name
  rw [EfLfsInfo.put]
  split
  · next fault hfault => nomatch hfault.symm.trans hcopy
  · next name hname =>
      obtain rfl := Except.ok.inj (hname.symm.trans hcopy)
      rfl

/-- The entry of a file has the size of the file, and a string of at most
`EF_LFS_NAME_MAX` characters with which the name of the file begins. -/
structure EfLfsInfo.Reports (file : EfLfsInfo) (info : LfsInfo) : Prop where
  size : file.size = info.size
  name : ∃ name, cString file.name 0 = .ok name ∧ name.length ≤ efLfsNameMax ∧
    name <+: info.name.1

theorem reported_reports (info : LfsInfo) : (reported info).Reports info := by
  have hzero : 0 ∉ info.name.1.take efLfsNameMax :=
    fun hmem => info.name.2 (List.mem_of_mem_take hmem)
  have hname : (reported info).name = info.name.1.take efLfsNameMax ++
      List.replicate (efLfsNameMax - info.name.1.length + 1) 0 := by
    rw [List.replicate_succ', ← List.append_assoc]
    rfl
  refine ⟨rfl, info.name.1.take efLfsNameMax, ?_, ?_, List.take_prefix _ _⟩
  · rw [hname, cString_zeros _ (Nat.succ_pos _)]
    have hstring := stringOf_append hzero []
    rw [List.append_nil] at hstring
    rw [hstring]
    exact congrArg Except.ok (List.append_nil _)
  · exact List.length_take_le _ _

/-! ## The loop -/

/-- The entries that the loop does not skip. -/
def LfsInfo.Listed (info : LfsInfo) : Prop :=
  ¬ (info.name.1 = ascii "." ∨ info.name.1 = ascii "..")

instance : DecidablePred LfsInfo.Listed :=
  fun _ => inferInstanceAs (Decidable (¬ _))

def LfsDir.files (dir : LfsDir) : List LfsInfo := dir.entries.filter (·.Listed)

theorem efPrintLoop_eq {capacity : ℕ} (entries : List LfsInfo)
    (fileList : Vector EfLfsInfo capacity) (nbFiles : UInt32) :
    efPrintLoop entries fileList nbFiles =
      fill reported (entries.filter (·.Listed)) fileList nbFiles := by
  induction entries generalizing fileList nbFiles with
  | nil => rfl
  | cons info entries ih =>
      rw [efPrintLoop]
      by_cases hskip : info.name.1 = ascii "." ∨ info.name.1 = ascii ".."
      · have hnot : ¬ info.Listed := not_not_intro hskip
        rw [if_pos hskip, List.filter_cons_of_neg (by simpa using hnot), ih]
      · have hlisted : info.Listed := hskip
        rw [if_neg hskip, List.filter_cons_of_pos (by simpa using hlisted)]
        by_cases hroom : nbFiles.toNat < capacity
        · rw [dif_pos hroom, EfLfsInfo.put_eq, ok_bind, ih, fill_cons_of_lt hroom]
        · rw [dif_neg hroom, fill_cons_of_le (Nat.not_lt.mp hroom)]

/-! ## The whole list -/

/-- The size of the table in the type of the parameter `file_list`. -/
def efFileListSize : ℕ := 20

/-- A call writes to the entries of its parameter only and counts no others, and each
entry that it counts reports a file of the directory.  An error leaves table and
counter as they are. -/
structure FilesListed (dir : LfsDir) {capacity : ℕ} (code : EfErrCode)
    (fileList fileList' : Vector EfLfsInfo capacity) (nbFiles nbFiles' : UInt32) :
    Prop where
  inside : ∀ i, efFileListSize ≤ i → fileList'[i]? = fileList[i]?
  count : code = .noErr → nbFiles'.toNat ≤ efFileListSize
  entries : code = .noErr → ∀ i < nbFiles'.toNat, ∃ info file,
    dir.files[i]? = some info ∧ fileList'[i]? = some file ∧ file.Reports info
  error : code ≠ .noErr → fileList' = fileList ∧ nbFiles' = nbFiles

/-- Every call with a table that has `more` entries behind those of the parameter. -/
def ListsFiles (dir : LfsDir) (ef : EasyFlash) (more : ℕ) : Prop :=
  ∀ (fileList : Vector EfLfsInfo (efFileListSize + more)) (nbFiles : UInt32),
    ∃ code fileList' nbFiles' ef', efPrintEnv dir fileList nbFiles ef =
        .ok (code, fileList', nbFiles', ef') ∧
      FilesListed dir code fileList fileList' nbFiles nbFiles'

section Call

variable {dir : LfsDir} {ef : EasyFlash} {capacity more : ℕ}
  {fileList fileList' : Vector EfLfsInfo capacity} {nbFiles nbFiles' : UInt32}

/-- An error in front of the loop. -/
theorem efPrintEnv_refused (h : ef.lfs → dir.openRet ≠ 0)
    (fileList : Vector EfLfsInfo capacity) (nbFiles : UInt32) :
    ∃ code ef', efPrintEnv dir fileList nbFiles ef =
      .ok (code, fileList, nbFiles, ef') ∧ code ≠ .noErr := by
  by_cases hlfs : ef.lfs = true
  · have hcall : efPrintEnv dir fileList nbFiles ef =
        .ok (.readErr, fileList, nbFiles,
          EasyFlash.giantUnlock { ef.giantLock with errno := -dir.openRet }) := by
      simp only [efPrintEnv, if_neg (not_not_intro hlfs), if_pos (h hlfs), pure_eq_ok]
    exact ⟨_, _, hcall, by decide⟩
  · have hcall : efPrintEnv dir fileList nbFiles ef =
        .ok (.envInitFailed, fileList, nbFiles, ef) := by
      simp only [efPrintEnv, if_pos hlfs, pure_eq_ok]
    exact ⟨_, _, hcall, by decide⟩

/-- From the open on the call is the loop. -/
theorem efPrintEnv_opened (hlfs : ef.lfs) (hopen : dir.openRet = 0)
    (fileList : Vector EfLfsInfo capacity) (nbFiles : UInt32) :
    ∃ ef', efPrintEnv dir fileList nbFiles ef =
      (fun r => (.noErr, r.1, r.2, ef')) <$> fill reported dir.files fileList 0 := by
  have hcall : efPrintEnv dir fileList nbFiles ef =
      (fun r => (.noErr, r.1, r.2,
        EasyFlash.giantUnlock (if dir.lastRet < 0 then
          { ef.giantLock with errno := -dir.lastRet } else ef.giantLock))) <$>
            efPrintLoop dir.entries fileList 0 := by
    simp only [efPrintEnv, if_neg (not_not_intro hlfs), if_neg (not_not_intro hopen),
      map_eq_pure_bind]
  rw [efPrintLoop_eq] at hcall
  exact ⟨_, hcall⟩

/-- An entry whose name has no terminator. -/
def unterminated : EfLfsInfo where
  size := 0
  name := List.replicate (efLfsNameMax + 1) 0x61
  length_name := List.length_replicate

theorem reported_ne_unterminated (info : LfsInfo) : reported info ≠ unterminated := by
  intro h
  have hzero : 0 ∈ (reported info).name :=
    List.mem_append_right _ (List.mem_singleton_self 0)
  rw [h] at hzero
  exact absurd (List.eq_of_mem_replicate hzero) (by decide)

/-- With more files the entry behind the parameter's is written, or the call leaves the
table. -/
theorem length_files_le (hlfs : ef.lfs) (hopen : dir.openRet = 0)
    (h : ListsFiles dir ef more) : dir.files.length ≤ efFileListSize := by
  by_contra hmany
  obtain ⟨code, fileList', nbFiles', ef', hcall, hlisted⟩ :=
    h (Vector.replicate _ unterminated) 0
  obtain ⟨ef'', hopened⟩ := efPrintEnv_opened hlfs hopen
    (Vector.replicate (efFileListSize + more) unterminated) 0
  rw [hopened] at hcall
  match hfill : fill reported dir.files
      (Vector.replicate (efFileListSize + more) unterminated) 0 with
  | .error fault =>
      rw [hfill] at hcall
      nomatch hcall
  | .ok (table, count) =>
      rw [hfill] at hcall
      have htable : table = fileList' := congrArg (·.2.1) (Except.ok.inj hcall)
      subst htable
      obtain ⟨info, hinfo⟩ := fill_reaches (by decide) (Nat.zero_le efFileListSize)
        (by simpa using hmany) hfill
      rw [hlisted.inside efFileListSize le_rfl] at hinfo
      have hfile := Vector.mem_of_getElem? hinfo
      rw [Vector.mem_replicate] at hfile
      exact reported_ne_unterminated info hfile.2

/-- The list is right exactly when the directory, if it can be opened, has at most 20
files. -/
theorem listsFiles_iff (dir : LfsDir) (ef : EasyFlash) (more : ℕ) :
    ListsFiles dir ef more ↔
      (ef.lfs → dir.openRet = 0 → dir.files.length ≤ efFileListSize) := by
  constructor
  · intro h hlfs hopen
    exact length_files_le hlfs hopen h
  · intro h fileList nbFiles
    by_cases hopens : ef.lfs ∧ dir.openRet = 0
    · obtain ⟨ef', hcall⟩ := efPrintEnv_opened hopens.1 hopens.2 fileList nbFiles
      have hmany := h hopens.1 hopens.2
      have hroom : (0 : UInt32).toNat + dir.files.length ≤ efFileListSize + more :=
        (Nat.zero_add _).trans_le (hmany.trans (Nat.le_add_right _ _))
      have hcount : (0 : UInt32).toNat + dir.files.length < 2 ^ 32 :=
        (Nat.zero_add _).trans_lt (hmany.trans_lt (by decide))
      obtain ⟨table, count, hfill, htotal, hfilled⟩ :=
        fill_filled reported hroom hcount fileList
      have hstart : (0 : UInt32).toNat = 0 := rfl
      rw [hfill] at hcall
      rw [hstart, Nat.zero_add] at htotal
      refine ⟨.noErr, table, count, ef', hcall, ?_, ?_, ?_, ?_⟩
      · intro i hi
        apply hfilled.behind
        exact (Nat.zero_add _).trans_le (hmany.trans hi)
      · intro _
        exact htotal.trans_le hmany
      · intro _ i hi
        rw [htotal] at hi
        have hfile := List.getElem?_eq_getElem hi
        have hentry := hfilled.entry i _ hfile
        rw [hstart, Nat.zero_add] at hentry
        exact ⟨_, _, hfile, hentry, reported_reports _⟩
      · exact fun hne => absurd rfl hne
    · obtain ⟨code, ef', hcall, hcode⟩ := efPrintEnv_refused
        (fun hlfs hopen => hopens ⟨hlfs, hopen⟩) fileList nbFiles
      refine ⟨code, fileList, nbFiles, ef', hcall, fun _ _ => rfl, ?_, ?_, ?_⟩
      · exact fun hok => absurd hok hcode
      · exact fun hok => absurd hok hcode
      · exact fun _ => ⟨rfl, rfl⟩

end Call

/-- A directory of `.`, `..` and the files `a` to `u`. -/
def manyFiles : LfsDir where
  openRet := 0
  entries := ⟨0, ⟨ascii ".", by decide⟩⟩ :: ⟨0, ⟨ascii "..", by decide⟩⟩ ::
    (List.finRange 21).map fun k : Fin 21 =>
      ⟨1, ⟨[0x61 + UInt8.ofNat k.1], by decide +revert⟩⟩
  lastRet := 0
  lastRet_nonpos := le_rfl

/-- The twenty-first file is written behind the table. -/
theorem not_listsFiles_many :
    ¬ ∀ dir ef more, ListsFiles dir ef more := by
  intro h
  have hlfs : emptyFlash.lfs = true := rfl
  have hle := length_files_le hlfs rfl (h manyFiles emptyFlash 12)
  exact absurd hle (by decide)

end RtpMulticast
