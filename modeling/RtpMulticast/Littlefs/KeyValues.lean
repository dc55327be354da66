import RtpMulticast.Littlefs.KeyPath
import RtpMulticast.Support.FileStore

/-!
# Key values in files

`ef_set_env_blob` and `ef_get_env_blob_offset` over the file functions of littlefs.
What a call of these functions does when it fails is left to the answers: a failed
open may have made an empty file, a failed write or truncation may leave anything in
the open file.  The contents of an open file are visible to later opens once it was
closed without an error.
-/

namespace RtpMulticast

open ByteBuffer CStrings FileStore

/-! ## State -/

/-- The errors of these functions. -/
inductive EfErrCode where
  | noErr
  | readErr
  | writeErr
  | envNameErr
  | envInitFailed
  | envArgErr
  deriving DecidableEq, Repr

/-- `LFS_EF_NAMESPACE`. -/
def lfsEfNamespace : CText := ⟨[0x2F], by decide⟩

/-- `sizeof(path_buffer)`. -/
def pathBufferSize : UInt32 := 64

/-- The static variables, whether `lfs` is set, how often `env_giant_lock` is held,
`errno` and the file system. -/
structure EasyFlash where
  lfs : Bool
  envGiantLock : ℕ
  pathBuffer : Bytes
  errno : ℤ
  files : Files Bytes UInt8
  length_pathBuffer : pathBuffer.length = pathBufferSize.toNat

/-- A system with an empty file system. -/
def emptyFlash : EasyFlash where
  lfs := true
  envGiantLock := 0
  pathBuffer := List.replicate 64 0
  errno := 0
  files := fun _ => none
  length_pathBuffer := rfl

namespace EasyFlash

/-- `ef_giant_lock`. -/
def giantLock (ef : EasyFlash) : EasyFlash :=
  { ef with envGiantLock := ef.envGiantLock + 1 }

/-- `ef_giant_unlock`. -/
def giantUnlock (ef : EasyFlash) : EasyFlash :=
  { ef with envGiantLock := ef.envGiantLock - 1 }

/-- `gen_kv_key_path` on `path_buffer`. -/
def genPath (ef : EasyFlash) (key : CText) : Except Fault (ℕ × EasyFlash) :=
  match h : genKvKeyPath ef.pathBuffer pathBufferSize lfsEfNamespace key with
  | .error fault => .error fault
  | .ok (ret, buf) =>
      .ok (ret,
        { ef with
          pathBuffer := buf
          length_pathBuffer :=
            (length_of_genKvKeyPath h).trans ef.length_pathBuffer })

end EasyFlash

/-! ## Writing -/

/-- The results of the calls of `ef_set_env_blob`, and what they leave when they
fail. -/
structure LfsWriteAnswers where
  openRet : ℤ
  created : Bool
  writeRet : ℤ
  writeLeft : Bytes
  truncateRet : ℤ
  truncateLeft : Bytes
  closeRet : ℤ

namespace LfsWriteAnswers

/-- `lfs_file_open` with `LFS_O_RDWR | LFS_O_CREAT`. -/
def fileOpen (answers : LfsWriteAnswers) (path : Bytes)
    (files : Files Bytes UInt8) : Files Bytes UInt8 :=
  if answers.openRet = 0 ∨ answers.created then create files path else files

/-- `lfs_file_write` at the beginning of the open file. -/
def fileWrite (answers : LfsWriteAnswers) (data file : Bytes) : Bytes :=
  if answers.writeRet = data.length then overwrite data file
  else answers.writeLeft

/-- `lfs_file_truncate`. -/
def fileTruncate (answers : LfsWriteAnswers) (size : ℕ) (file : Bytes) : Bytes :=
  if answers.truncateRet = 0 then truncate 0 size file else answers.truncateLeft

/-- `lfs_file_close`. -/
def fileClose (answers : LfsWriteAnswers) (path file : Bytes)
    (files : Files Bytes UInt8) : Files Bytes UInt8 :=
  if answers.closeRet = 0 then commit files path file else files

end LfsWriteAnswers

/-- `ef_set_env_blob` from the open of the file on. -/
def efWriteFile (answers : LfsWriteAnswers) (path data : Bytes) (ef : EasyFlash) :
    EfErrCode × EasyFlash :=
  let ef := { ef with files := answers.fileOpen path ef.files }
  if answers.openRet ≠ 0 then
    (.writeErr, { ef with errno := -answers.openRet })
  else
    let file := answers.fileWrite data (content ef.files path)
    if answers.writeRet ≠ data.length then
      (.writeErr,
        { ef with
          errno := -answers.writeRet
          files := answers.fileClose path file ef.files })
    else
      let file := answers.fileTruncate data.length file
      if answers.truncateRet ≠ 0 then
        (.writeErr,
          { ef with
            errno := -answers.truncateRet
            files := answers.fileClose path file ef.files })
      else (.noErr, { ef with files := answers.fileClose path file ef.files })

/-- The result of the call; a pointer is null or the object from there on. -/
def efSetEnvBlob (answers : LfsWriteAnswers) (key : Option CText)
    (valueBuf : Option Bytes) (bufLen : ℕ) (ef : EasyFlash) :
    Except Fault (EfErrCode × EasyFlash) := do
  if ¬ ef.lfs then
    return (.envInitFailed, ef)
  match key, valueBuf with
  | some key, some valueBuf =>
      if bufLen = 0 then
        return (.envArgErr, ef)
      let (ret, ef) ← ef.giantLock.genPath key
      if pathBufferSize.toNat ≤ ret then
        return (.envNameErr, ef.giantUnlock)
      let path ← cString ef.pathBuffer 0
      let data ← copyOut valueBuf 0 bufLen
      let (code, ef) := efWriteFile answers path data ef
      return (code, ef.giantUnlock)
  | _, _ => return (.envArgErr, ef)

/-! ## Reading -/

/-- The errors of the calls of `ef_get_env_blob_offset`; a failed read may have
read something. -/
structure LfsReadAnswers where
  openErr : Option ℤ
  seekErr : Option ℤ
  readErr : Option (ℤ × Bytes)
  sizeErr : Option ℤ

/-- No call fails. -/
def LfsReadAnswers.good : LfsReadAnswers := ⟨none, none, none, none⟩

/-- What the caller sees: the result, the buffer and the length that is written
behind the pointer `saved_value_len`. -/
structure EnvBlob where
  ret : ℕ
  valueBuf : Option Bytes
  savedValueLen : Option ℕ
  deriving DecidableEq

/-- `LFS_ERR_NOENT`. -/
def lfsErrNoent : ℤ := -2

/-- `LFS_ERR_INVAL`. -/
def lfsErrInval : ℤ := -22

namespace LfsReadAnswers

/-- `lfs_file_open` with `LFS_O_RDONLY`. -/
def fileOpen (answers : LfsReadAnswers) (path : Bytes)
    (files : Files Bytes UInt8) : ℤ :=
  answers.openErr.getD (if (files path).isSome then 0 else lfsErrNoent)

/-- `lfs_file_seek` with `LFS_SEEK_SET`; as an unsigned number a negative offset is
behind the largest file. -/
def fileSeek (answers : LfsReadAnswers) (offset : ℤ) : ℤ :=
  answers.seekErr.getD (if offset < 0 then lfsErrInval else offset)

/-- `lfs_file_read` from a place on: its result and the bytes that it writes. -/
def fileRead (answers : LfsReadAnswers) (file : Bytes) (pos size : ℕ) :
    ℤ × Bytes :=
  answers.readErr.getD
    (((file.drop pos).take size).length, (file.drop pos).take size)

/-- `lfs_file_size`. -/
def fileSize (answers : LfsReadAnswers) (file : Bytes) : ℤ :=
  answers.sizeErr.getD file.length

end LfsReadAnswers

/-- `ef_get_env_blob_offset` from the open of the file on.  After a failed read
`errno` comes from the result of the seek. -/
def efReadFile (answers : LfsReadAnswers) (path valueBuf : Bytes) (bufLen : ℕ)
    (savedValueLen : Bool) (offset : ℤ) (ef : EasyFlash) :
    Except Fault (EnvBlob × EasyFlash) := do
  let file := content ef.files path
  let ret := answers.fileOpen path ef.files
  if ret ≠ 0 then
    return (⟨0, some valueBuf, none⟩, { ef with errno := -ret })
  let ret := answers.fileSeek offset
  if ret < 0 then
    return (⟨0, some valueBuf, none⟩, { ef with errno := -ret })
  let (readLen, data) := answers.fileRead file ret.toNat bufLen
  let valueBuf ← copyIn valueBuf 0 data
  if readLen < 0 then
    return (⟨0, some valueBuf, none⟩, { ef with errno := -ret })
  if savedValueLen then
    let ret := answers.fileSize file
    if ret < 0 then
      return (⟨0, some valueBuf, none⟩, { ef with errno := -ret })
    return (⟨readLen.toNat, some valueBuf, some ret.toNat⟩, ef)
  return (⟨readLen.toNat, some valueBuf, none⟩, ef)

def efGetEnvBlobOffset (answers : LfsReadAnswers) (key : Option CText)
    (valueBuf : Option Bytes) (bufLen : ℕ) (savedValueLen : Bool) (offset : ℤ)
    (ef : EasyFlash) : Except Fault (EnvBlob × EasyFlash) := do
  if ¬ ef.lfs then
    return (⟨0, valueBuf, none⟩, ef)
  match key, valueBuf with
  | some key, some valueBuf =>
      if bufLen = 0 then
        return (⟨0, valueBuf, none⟩, ef)
      let (ret, ef) ← ef.giantLock.genPath key
      if pathBufferSize.toNat ≤ ret then
        return (⟨0, valueBuf, none⟩, ef.giantUnlock)
      let path ← cString ef.pathBuffer 0
      let (blob, ef) ← efReadFile answers path valueBuf bufLen savedValueLen
        offset ef
      return (blob, ef.giantUnlock)
  | _, valueBuf => return (⟨0, valueBuf, none⟩, ef)

def efGetEnvBlob (answers : LfsReadAnswers) (key : Option CText)
    (valueBuf : Option Bytes) (bufLen : ℕ) (savedValueLen : Bool)
    (ef : EasyFlash) : Except Fault (EnvBlob × EasyFlash) :=
  efGetEnvBlobOffset answers key valueBuf bufLen savedValueLen 0 ef

/-! ## The path in the buffer -/

/-- The file of a key. -/
def keyFile (key : CText) : Bytes := keyPath lfsEfNamespace.1 key.1

theorem keyFile_injective {key key' : CText} (h : keyFile key = keyFile key') :
    key = key' :=
  Subtype.ext (keyPath_injective lfsEfNamespace.1 h)

theorem keyFile_noZero (key : CText) : 0 ∉ keyFile key :=
  keyPath_noZero lfsEfNamespace.2 key.2

/-- Two states that differ in the path buffer, the lock and the error number. -/
structure EasyFlash.SameFiles (ef ef' : EasyFlash) : Prop where
  lfs : ef'.lfs = ef.lfs
  files : ef'.files = ef.files

theorem EasyFlash.genPath_eq (ef : EasyFlash) (key : CText) :
    ∃ ef', ef.genPath key = .ok ((keyFile key).length, ef') ∧
      ef.SameFiles ef' ∧ ef'.envGiantLock = ef.envGiantLock ∧
      ((keyFile key).length < pathBufferSize.toNat →
        cString ef'.pathBuffer 0 = .ok (keyFile key)) := by
  have hpath : ∃ buf, genKvKeyPath ef.pathBuffer pathBufferSize lfsEfNamespace key =
      .ok ((keyFile key).length, buf) ∧
        ((keyFile key).length < pathBufferSize.toNat →
          cString buf 0 = .ok (keyFile key)) := by
    by_cases hfits : (keyFile key).length < pathBufferSize.toNat
    · refine ⟨_, genKvKeyPath_of_lt lfsEfNamespace key
        ef.length_pathBuffer.ge hfits, fun _ => ?_⟩
      have hmem : (0 : UInt8) ∈ (keyFile key ++
          0 :: ef.pathBuffer.drop ((keyFile key).length + 1)).drop 0 :=
        List.mem_append_right _ List.mem_cons_self
      have hstring : stringOf (keyFile key ++
          0 :: ef.pathBuffer.drop ((keyFile key).length + 1)) = keyFile key := by
        rw [stringOf_append (keyFile_noZero key)]
        exact List.append_nil _
      exact (if_pos hmem).trans (congrArg Except.ok hstring)
    · exact ⟨_, genKvKeyPath_of_le ef.pathBuffer lfsEfNamespace key (by decide)
        (Nat.le_of_not_lt hfits), fun h => absurd h hfits⟩
  obtain ⟨buf, hgen, hstring⟩ := hpath
  rw [EasyFlash.genPath]
  split
  · next fault hfault => nomatch hfault.symm.trans hgen
  · next ret buf' hret =>
      obtain ⟨rfl, rfl⟩ := Prod.mk.inj (Except.ok.inj (hret.symm.trans hgen))
      exact ⟨_, rfl, ⟨rfl, rfl⟩, rfl, hstring⟩

/-! ## What the calls do -/

/-- What a write or a truncation that failed left in the open file. -/
def LfsWriteAnswers.left (answers : LfsWriteAnswers) (data : Bytes) : Bytes :=
  if answers.writeRet = data.length then answers.truncateLeft
  else answers.writeLeft

/-- The ways through `ef_set_env_blob` from the open on: its result and the visible
files. -/
inductive WriteMove (answers : LfsWriteAnswers) (path data : Bytes)
    (files : Files Bytes UInt8) : EfErrCode → Files Bytes UInt8 → Prop
  | openFailed : answers.openRet ≠ 0 →
      WriteMove answers path data files .writeErr (answers.fileOpen path files)
  | failed : answers.openRet = 0 →
      ¬ (answers.writeRet = data.length ∧ answers.truncateRet = 0) →
      WriteMove answers path data files .writeErr
        (answers.fileClose path (answers.left data) (create files path))
  | done : answers.openRet = 0 → answers.writeRet = data.length →
      answers.truncateRet = 0 →
      WriteMove answers path data files .noErr
        (answers.fileClose path data (create files path))

theorem efWriteFile_move (answers : LfsWriteAnswers) (path data : Bytes)
    (ef : EasyFlash) :
    WriteMove answers path data ef.files (efWriteFile answers path data ef).1
        (efWriteFile answers path data ef).2.files ∧
      (efWriteFile answers path data ef).2.lfs = ef.lfs ∧
      (efWriteFile answers path data ef).2.envGiantLock = ef.envGiantLock := by
  rw [efWriteFile]
  by_cases hopen : answers.openRet = 0
  · have hcreate : answers.fileOpen path ef.files = create ef.files path :=
      if_pos (Or.inl hopen)
    simp only [hcreate, if_neg (not_not_intro hopen), content_create]
    by_cases hwrite : answers.writeRet = data.length
    · have hfile : answers.fileWrite data (content ef.files path) =
          overwrite data (content ef.files path) := if_pos hwrite
      simp only [if_neg (not_not_intro hwrite), hfile]
      by_cases htruncate : answers.truncateRet = 0
      · have hcut : answers.fileTruncate data.length
            (overwrite data (content ef.files path)) = data :=
          (if_pos htruncate).trans (truncate_overwrite 0 data _)
        simp only [if_neg (not_not_intro htruncate), hcut]
        exact ⟨.done hopen hwrite htruncate, trivial, trivial⟩
      · have hcut : answers.fileTruncate data.length
            (overwrite data (content ef.files path)) = answers.left data := by
          rw [LfsWriteAnswers.fileTruncate, if_neg htruncate,
            LfsWriteAnswers.left, if_pos hwrite]
        simp only [if_pos htruncate, hcut]
        exact ⟨.failed hopen fun h => htruncate h.2, trivial, trivial⟩
    · have hfile : answers.fileWrite data (content ef.files path) =
          answers.left data := by
        rw [LfsWriteAnswers.fileWrite, if_neg hwrite, LfsWriteAnswers.left,
          if_neg hwrite]
      simp only [if_pos hwrite, hfile]
      exact ⟨.failed hopen fun h => hwrite h.1, trivial, trivial⟩
  · simp only [if_pos hopen]
    exact ⟨.openFailed hopen, trivial, trivial⟩

/-- The calls of `ef_set_env_blob` that come to the open. -/
structure SetOpens (key : CText) (value : Bytes) (ef : EasyFlash) : Prop where
  lfs : ef.lfs
  value : value ≠ []
  fits : (keyFile key).length < pathBufferSize.toNat

/-- In front of the open a call fails without an effect. -/
theorem efSetEnvBlob_refused (answers : LfsWriteAnswers) {key : CText}
    {value : Bytes} {ef : EasyFlash} (h : ¬ SetOpens key value ef) :
    ∃ code ef', efSetEnvBlob answers (some key) (some value) value.length ef =
        .ok (code, ef') ∧
      code ≠ .noErr ∧ ef.SameFiles ef' ∧
      ef'.envGiantLock = ef.envGiantLock := by
  by_cases hlfs : ef.lfs
  · by_cases hvalue : value = []
    · have hlen : value.length = 0 := List.length_eq_zero_iff.mpr hvalue
      refine ⟨.envArgErr, ef, ?_, nofun, ⟨rfl, rfl⟩, rfl⟩
      simp only [efSetEnvBlob, if_neg (not_not_intro hlfs), if_pos hlen,
        pure_eq_ok]
    · have hlen : value.length ≠ 0 :=
        fun hzero => hvalue (List.length_eq_zero_iff.mp hzero)
      have hlong : pathBufferSize.toNat ≤ (keyFile key).length :=
        Nat.le_of_not_lt fun hfits => h ⟨hlfs, hvalue, hfits⟩
      obtain ⟨ef₁, hgen, hsame, hlock, -⟩ := ef.giantLock.genPath_eq key
      refine ⟨.envNameErr, ef₁.giantUnlock, ?_, nofun,
        ⟨hsame.lfs, hsame.files⟩, congrArg (· - 1) hlock⟩
      simp only [efSetEnvBlob, if_neg (not_not_intro hlfs), if_neg hlen, hgen,
        ok_bind, if_pos hlong, pure_eq_ok]
  · refine ⟨.envInitFailed, ef, ?_, nofun, ⟨rfl, rfl⟩, rfl⟩
    simp only [efSetEnvBlob, if_pos hlfs, pure_eq_ok]

/-- From the open on a call goes one of the ways. -/
theorem efSetEnvBlob_opened (answers : LfsWriteAnswers) {key : CText}
    {value : Bytes} {ef : EasyFlash} (h : SetOpens key value ef) :
    ∃ code ef', efSetEnvBlob answers (some key) (some value) value.length ef =
        .ok (code, ef') ∧
      WriteMove answers (keyFile key) value ef.files code ef'.files ∧
      ef'.lfs = ef.lfs ∧ ef'.envGiantLock = ef.envGiantLock := by
  have hlen : value.length ≠ 0 :=
    fun hzero => h.value (List.length_eq_zero_iff.mp hzero)
  obtain ⟨ef₁, hgen, hsame, hlock, hstring⟩ := ef.giantLock.genPath_eq key
  obtain ⟨hmove, hlfs, hheld⟩ :=
    efWriteFile_move answers (keyFile key) value ef₁
  have hfiles : ef₁.files = ef.files := hsame.files
  rw [hfiles] at hmove
  refine ⟨(efWriteFile answers (keyFile key) value ef₁).1,
    (efWriteFile answers (keyFile key) value ef₁).2.giantUnlock,
    ?_, hmove, hlfs.trans hsame.lfs, ?_⟩
  · simp only [efSetEnvBlob, if_neg (not_not_intro h.lfs), if_neg hlen, hgen,
      ok_bind, if_neg (Nat.not_le_of_lt h.fits), hstring h.fits, copyOut_all,
      pure_eq_ok]
  · exact congrArg (· - 1) (hheld.trans hlock)

/-- A read leaves the files alone. -/
theorem efReadFile_keeps {answers : LfsReadAnswers} {path valueBuf : Bytes}
    {bufLen : ℕ} {savedValueLen : Bool} {offset : ℤ} {ef ef' : EasyFlash}
    {blob : EnvBlob}
    (h : efReadFile answers path valueBuf bufLen savedValueLen offset ef =
      .ok (blob, ef')) :
    ef.SameFiles ef' ∧ ef'.envGiantLock = ef.envGiantLock := by
  have hend : ∀ {blob' : EnvBlob} {errno : ℤ},
      (Except.ok (blob', { ef with errno := errno }) :
        Except Fault (EnvBlob × EasyFlash)) = .ok (blob, ef') →
      ef.SameFiles ef' ∧ ef'.envGiantLock = ef.envGiantLock := by
    intro blob' errno heq
    obtain ⟨-, rfl⟩ := Prod.mk.inj (Except.ok.inj heq)
    exact ⟨⟨rfl, rfl⟩, rfl⟩
  simp only [efReadFile, pure_eq_ok] at h
  split at h
  · exact hend h
  split at h
  · exact hend h
  obtain ⟨buf, -, h⟩ := bind_eq_ok.mp h
  split at h
  · exact hend h
  split at h
  · split at h
    · exact hend h
    · obtain ⟨-, rfl⟩ := Prod.mk.inj (Except.ok.inj h)
      exact ⟨⟨rfl, rfl⟩, rfl⟩
  · obtain ⟨-, rfl⟩ := Prod.mk.inj (Except.ok.inj h)
    exact ⟨⟨rfl, rfl⟩, rfl⟩

/-- The lock is released on every way through a read. -/
theorem efGetEnvBlobOffset_keeps {answers : LfsReadAnswers} {key : Option CText}
    {valueBuf : Option Bytes} {bufLen : ℕ} {savedValueLen : Bool} {offset : ℤ}
    {ef ef' : EasyFlash} {blob : EnvBlob}
    (h : efGetEnvBlobOffset answers key valueBuf bufLen savedValueLen offset ef =
      .ok (blob, ef')) :
    ef.SameFiles ef' ∧ ef'.envGiantLock = ef.envGiantLock := by
  have hend : ∀ {blob' : EnvBlob}, (Except.ok (blob', ef) :
        Except Fault (EnvBlob × EasyFlash)) = .ok (blob, ef') →
      ef.SameFiles ef' ∧ ef'.envGiantLock = ef.envGiantLock := by
    intro blob' heq
    obtain ⟨-, rfl⟩ := Prod.mk.inj (Except.ok.inj heq)
    exact ⟨⟨rfl, rfl⟩, rfl⟩
  simp only [efGetEnvBlobOffset, pure_eq_ok] at h
  split at h
  · exact hend h
  split at h
  · next key valueBuf =>
      split at h
      · exact hend h
      obtain ⟨ef₁, hgen, hsame, hlock, -⟩ := ef.giantLock.genPath_eq key
      rw [hgen, ok_bind] at h
      split at h
      · obtain ⟨-, rfl⟩ := Prod.mk.inj (Except.ok.inj h)
        exact ⟨⟨hsame.lfs, hsame.files⟩, congrArg (· - 1) hlock⟩
      · obtain ⟨path, -, h⟩ := bind_eq_ok.mp h
        obtain ⟨⟨blob₂, ef₂⟩, hread, h⟩ := bind_eq_ok.mp h
        obtain ⟨-, rfl⟩ := Prod.mk.inj (Except.ok.inj h)
        obtain ⟨hkeep, hheld⟩ := efReadFile_keeps hread
        exact ⟨⟨hkeep.lfs.trans hsame.lfs, hkeep.files.trans hsame.files⟩,
          congrArg (· - 1) (hheld.trans hlock)⟩
  · exact hend h

/-- What a caller with a buffer of some size gets of a file. -/
def storedBlob (file : Option Bytes) (buf : Bytes) : EnvBlob :=
  match file with
  | none => ⟨0, some buf, none⟩
  | some value =>
      let data := value.take buf.length
      ⟨data.length, some (data ++ buf.drop data.length), some value.length⟩

/-- A read in which no call fails. -/
def readBack (key : CText) (buf : Bytes) (ef : EasyFlash) : Except Fault EnvBlob :=
  (efGetEnvBlob .good (some key) (some buf) buf.length true ef).map (·.1)

theorem efReadFile_good (path buf : Bytes) (ef : EasyFlash) :
    ∃ ef', efReadFile .good path buf buf.length true 0 ef =
      .ok (storedBlob (ef.files path) buf, ef') := by
  cases hfile : ef.files path with
  | none =>
      have hopen : LfsReadAnswers.good.fileOpen path ef.files = lfsErrNoent := by
        rw [LfsReadAnswers.fileOpen, hfile]
        rfl
      refine ⟨{ ef with errno := -lfsErrNoent }, ?_⟩
      rw [efReadFile, hopen]
      rfl
  | some value =>
      have hopen : LfsReadAnswers.good.fileOpen path ef.files = 0 := by
        rw [LfsReadAnswers.fileOpen, hfile]
        rfl
      have hcontent : content ef.files path = value := by
        rw [content, hfile, Option.getD_some]
      have hcopy : copyIn buf 0 (value.take buf.length) =
          .ok (value.take buf.length ++
            buf.drop (value.take buf.length).length) := by
        have hfit : 0 + (value.take buf.length).length ≤ buf.length := by
          rw [Nat.zero_add, List.length_take]
          exact Nat.min_le_left _ _
        rw [copyIn, if_pos hfit, List.take_zero, List.nil_append, Nat.zero_add]
      have hseek : LfsReadAnswers.good.fileSeek 0 = 0 := rfl
      have hread : LfsReadAnswers.good.fileRead value 0 buf.length =
          (((value.take buf.length).length : ℤ), value.take buf.length) := rfl
      have hsize : LfsReadAnswers.good.fileSize value = value.length := rfl
      have hnonneg : ∀ n : ℕ, ¬ (n : ℤ) < 0 := fun n =>
        Int.not_lt.mpr (Int.natCast_nonneg n)
      refine ⟨ef, ?_⟩
      rw [efReadFile, hopen, hseek, hcontent]
      simp only [ne_eq, not_true_eq_false, if_false, Int.lt_irrefl,
        Int.toNat_zero, hread, hcopy, ok_bind, hnonneg, hsize, if_true,
        Int.toNat_natCast, pure_eq_ok]
      rfl

theorem readBack_eq (key : CText) (buf : Bytes) (ef : EasyFlash) :
    readBack key buf ef =
      .ok (if ef.lfs ∧ buf ≠ [] ∧
          (keyFile key).length < pathBufferSize.toNat then
        storedBlob (ef.files (keyFile key)) buf
      else ⟨0, some buf, none⟩) := by
  rw [readBack, efGetEnvBlob]
  by_cases hlfs : ef.lfs
  · by_cases hbuf : buf = []
    · have hlen : buf.length = 0 := List.length_eq_zero_iff.mpr hbuf
      rw [if_neg fun h => h.2.1 hbuf]
      simp only [efGetEnvBlobOffset, if_neg (not_not_intro hlfs), if_pos hlen,
        pure_eq_ok]
      rfl
    · have hlen : buf.length ≠ 0 :=
        fun hzero => hbuf (List.length_eq_zero_iff.mp hzero)
      obtain ⟨ef₁, hgen, hsame, -, hstring⟩ := ef.giantLock.genPath_eq key
      by_cases hfits : (keyFile key).length < pathBufferSize.toNat
      · obtain ⟨ef₂, hread⟩ := efReadFile_good (keyFile key) buf ef₁
        have hfiles : ef₁.files = ef.files := hsame.files
        rw [hfiles] at hread
        rw [if_pos ⟨hlfs, hbuf, hfits⟩]
        simp only [efGetEnvBlobOffset, if_neg (not_not_intro hlfs), if_neg hlen,
          hgen, ok_bind, if_neg (Nat.not_le_of_lt hfits), hstring hfits, hread,
          pure_eq_ok]
        rfl
      · rw [if_neg fun h => hfits h.2.2]
        simp only [efGetEnvBlobOffset, if_neg (not_not_intro hlfs), if_neg hlen,
          hgen, ok_bind, if_pos (Nat.le_of_not_lt hfits), pure_eq_ok]
        rfl
  · rw [if_neg fun h => hlfs h.1]
    simp only [efGetEnvBlobOffset, if_pos hlfs, pure_eq_ok]
    rfl

/-- A read sees the file of its key and nothing else. -/
theorem readBack_congr {key : CText} (buf : Bytes) {ef ef' : EasyFlash}
    (hlfs : ef'.lfs = ef.lfs)
    (hfile : ef'.files (keyFile key) = ef.files (keyFile key)) :
    readBack key buf ef' = readBack key buf ef := by
  rw [readBack_eq, readBack_eq, hlfs, hfile]

end RtpMulticast
