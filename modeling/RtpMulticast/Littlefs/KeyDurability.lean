import RtpMulticast.Littlefs.KeyValues

/-!
# Durability of a key value

What a caller of `ef_set_env_blob` can rely on.  The result of the last call, the
close of the file, is not looked at, and on an error the open file is closed with
whatever it holds.
-/

namespace RtpMulticast

open ByteBuffer CStrings FileStore

/-! ## What a read shows of a file -/

/-- Result and buffer show the contents, whether the file exists or not. -/
theorem storedBlob_data (file : Option Bytes) (buf : Bytes) :
    (storedBlob file buf).ret = ((file.getD []).take buf.length).length ∧
      (storedBlob file buf).valueBuf =
        some ((file.getD []).take buf.length ++
          buf.drop ((file.getD []).take buf.length).length) := by
  cases file with
  | none => exact ⟨by simp [storedBlob], by simp [storedBlob]⟩
  | some value => exact ⟨rfl, rfl⟩

/-- A buffer that holds either of two contents. -/
def roomFor (c d : Bytes) : Bytes := List.replicate (c.length + d.length + 1) 0

theorem roomFor_ne (c d : Bytes) : roomFor c d ≠ [] :=
  List.ne_nil_of_length_pos (by rw [roomFor, List.length_replicate]; omega)

/-- Contents that look the same in a buffer with room for them are the same. -/
theorem getD_eq_of_data {file file' : Option Bytes}
    (hret : (storedBlob file' (roomFor (file.getD []) (file'.getD []))).ret =
      (storedBlob file (roomFor (file.getD []) (file'.getD []))).ret)
    (hbuf : (storedBlob file' (roomFor (file.getD []) (file'.getD []))).valueBuf =
      (storedBlob file (roomFor (file.getD []) (file'.getD []))).valueBuf) :
    file'.getD [] = file.getD [] := by
  have hroom : (roomFor (file.getD []) (file'.getD [])).length =
      (file.getD []).length + (file'.getD []).length + 1 :=
    List.length_replicate
  have hold : (file.getD []).take (roomFor (file.getD []) (file'.getD [])).length =
      file.getD [] := List.take_of_length_le (by omega)
  have hnew : (file'.getD []).take
      (roomFor (file.getD []) (file'.getD [])).length = file'.getD [] :=
    List.take_of_length_le (by omega)
  rw [(storedBlob_data file' _).1, (storedBlob_data file _).1, hold, hnew] at hret
  rw [(storedBlob_data file' _).2, (storedBlob_data file _).2, hold, hnew] at hbuf
  exact (List.append_inj (Option.some.inj hbuf) hret).1

/-- A caller gets the value and its length, as far as the buffer goes. -/
def ReturnsValue (key : CText) (value : Bytes) (ef : EasyFlash) : Prop :=
  ∀ buf, buf ≠ [] → readBack key buf ef = .ok (storedBlob (some value) buf)

/-- A caller gets the value that the state before has; a key without a value then
still has none. -/
def StillReturns (key : CText) (ef ef' : EasyFlash) : Prop :=
  ∀ buf, ∃ old new, readBack key buf ef = .ok old ∧
    readBack key buf ef' = .ok new ∧ new.ret = old.ret ∧
    new.valueBuf = old.valueBuf ∧
    ∀ n, old.savedValueLen = some n → new.savedValueLen = some n

section Reads

variable {key : CText} {ef ef' : EasyFlash}

theorem readBack_of_opens {buf : Bytes} (hlfs : ef.lfs) (hbuf : buf ≠ [])
    (hfits : (keyFile key).length < pathBufferSize.toNat) :
    readBack key buf ef = .ok (storedBlob (ef.files (keyFile key)) buf) := by
  rw [readBack_eq, if_pos ⟨hlfs, hbuf, hfits⟩]

theorem returnsValue_iff {value : Bytes} (hlfs : ef.lfs)
    (hfits : (keyFile key).length < pathBufferSize.toNat) :
    ReturnsValue key value ef ↔ ef.files (keyFile key) = some value := by
  constructor
  · intro h
    have hroom := h _ (roomFor_ne value (content ef.files (keyFile key)))
    rw [readBack_of_opens hlfs (roomFor_ne _ _) hfits] at hroom
    have hblob := Except.ok.inj hroom
    have hcontent : content ef.files (keyFile key) = value :=
      @getD_eq_of_data (some value) (ef.files (keyFile key))
        (congrArg EnvBlob.ret hblob) (congrArg EnvBlob.valueBuf hblob)
    have hsaved := congrArg EnvBlob.savedValueLen hblob
    cases hfile : ef.files (keyFile key) with
    | none =>
        rw [hfile] at hsaved
        nomatch hsaved
    | some c => rw [← hcontent, content, hfile, Option.getD_some]
  · intro h buf hbuf
    rw [readBack_of_opens hlfs hbuf hfits, h]

theorem stillReturns_of_files (hlfs : ef'.lfs = ef.lfs)
    (hfile : ef'.files (keyFile key) = ef.files (keyFile key)) :
    StillReturns key ef ef' := by
  intro buf
  have hcongr := readBack_congr buf hlfs hfile
  have heq := readBack_eq key buf ef
  exact ⟨_, _, heq, hcongr.trans heq, rfl, rfl, fun n h => h⟩

/-- A file that exists afterwards is as good as before when its contents are the
same. -/
theorem stillReturns_iff (hlfs : ef.lfs) (hlfs' : ef'.lfs)
    (hfits : (keyFile key).length < pathBufferSize.toNat)
    {file : Bytes} (hfile : ef'.files (keyFile key) = some file) :
    StillReturns key ef ef' ↔ file = content ef.files (keyFile key) := by
  constructor
  · intro h
    obtain ⟨old, new, hold, hnew, hret, hbuf, -⟩ :=
      h (roomFor (content ef.files (keyFile key)) file)
    rw [readBack_of_opens hlfs (roomFor_ne _ _) hfits] at hold
    rw [readBack_of_opens hlfs' (roomFor_ne _ _) hfits, hfile] at hnew
    rw [← Except.ok.inj hold, ← Except.ok.inj hnew] at hret hbuf
    exact @getD_eq_of_data (ef.files (keyFile key)) (some file) hret hbuf
  · intro h buf
    by_cases hbuf : buf = []
    · have hempty : ∀ ef, readBack key buf ef = .ok ⟨0, some buf, none⟩ := by
        intro ef
        rw [readBack_eq, if_neg fun hopens => hopens.2.1 hbuf]
      exact ⟨_, _, hempty ef, hempty ef', rfl, rfl, fun n h => h⟩
    · refine ⟨_, _, readBack_of_opens hlfs hbuf hfits,
        readBack_of_opens hlfs' hbuf hfits, ?_, ?_, ?_⟩
      · rw [hfile, (storedBlob_data _ buf).1, (storedBlob_data _ buf).1, h]
        rfl
      · rw [hfile, (storedBlob_data _ buf).2, (storedBlob_data _ buf).2, h]
        rfl
      · intro n hn
        cases hold : ef.files (keyFile key) with
        | none =>
            rw [hold] at hn
            nomatch hn
        | some c =>
            rw [hold] at hn
            rw [hfile, h, content, hold]
            exact hn

end Reads

/-! ## Durable writes -/

/-- After a success the value is returned and every other key is as before; after an
error the key still has its value.  The lock is released, by the following reads
too. -/
def KeyValueDurable (answers : LfsWriteAnswers) (key : CText) (value : Bytes)
    (ef : EasyFlash) : Prop :=
  ∃ code ef', efSetEnvBlob answers (some key) (some value) value.length ef =
      .ok (code, ef') ∧
    ef'.envGiantLock = ef.envGiantLock ∧
    (∀ readAnswers valueBuf bufLen savedValueLen offset blob ef'',
      efGetEnvBlobOffset readAnswers (some key) valueBuf bufLen savedValueLen
        offset ef' = .ok (blob, ef'') → ef''.envGiantLock = ef'.envGiantLock) ∧
    (code = .noErr → ReturnsValue key value ef' ∧
      ∀ key', key' ≠ key → ∀ buf, readBack key' buf ef' = readBack key' buf ef) ∧
    (code ≠ .noErr → StillReturns key ef ef')

/-- The calls whose close cannot spoil the result: after a complete write it succeeds
or the file has that value already, and after a failed write or truncation it fails
or the open file holds what the file had. -/
structure Settles (answers : LfsWriteAnswers) (key : CText) (value : Bytes)
    (ef : EasyFlash) : Prop where
  written : SetOpens key value ef → answers.openRet = 0 →
    answers.writeRet = value.length → answers.truncateRet = 0 →
      answers.closeRet = 0 ∨ ef.files (keyFile key) = some value
  kept : SetOpens key value ef → answers.openRet = 0 →
    ¬ (answers.writeRet = value.length ∧ answers.truncateRet = 0) →
      answers.closeRet = 0 →
        answers.left value = content ef.files (keyFile key)

section Moves

variable {answers : LfsWriteAnswers} {key : CText} {value : Bytes}

theorem fileOpen_of_ne (answers : LfsWriteAnswers) {path q : Bytes} (h : q ≠ path)
    (files : Files Bytes UInt8) : answers.fileOpen path files q = files q := by
  rw [LfsWriteAnswers.fileOpen]
  split
  · exact create_of_ne files h
  · rfl

theorem fileClose_of_ne (answers : LfsWriteAnswers) {path q : Bytes} (h : q ≠ path)
    (file : Bytes) (files : Files Bytes UInt8) :
    answers.fileClose path file files q = files q := by
  rw [LfsWriteAnswers.fileClose]
  split
  · exact commit_of_ne files h file
  · rfl

/-- The file of a key after a close. -/
theorem fileClose_create (answers : LfsWriteAnswers) (path file : Bytes)
    (files : Files Bytes UInt8) :
    answers.fileClose path file (create files path) path =
      some (if answers.closeRet = 0 then file else content files path) := by
  by_cases hclose : answers.closeRet = 0
  · rw [LfsWriteAnswers.fileClose, if_pos hclose, if_pos hclose, commit_self]
  · rw [LfsWriteAnswers.fileClose, if_neg hclose, if_neg hclose, create_self]

/-- No way changes another file. -/
theorem WriteMove.files_of_ne {path data q : Bytes} {files files' : Files Bytes UInt8}
    {code : EfErrCode} (h : WriteMove answers path data files code files')
    (hq : q ≠ path) : files' q = files q := by
  cases h with
  | openFailed _ => exact fileOpen_of_ne answers hq files
  | failed _ _ =>
      rw [fileClose_of_ne answers hq, create_of_ne files hq]
  | done _ _ _ =>
      rw [fileClose_of_ne answers hq, create_of_ne files hq]

/-- A failed open leaves at most an empty file of a key that had none. -/
theorem stillReturns_of_openFailed {ef ef' : EasyFlash}
    (hopens : SetOpens key value ef) (hlfs : ef'.lfs = ef.lfs)
    (hfiles : ef'.files = answers.fileOpen (keyFile key) ef.files) :
    StillReturns key ef ef' := by
  by_cases hmade : answers.openRet = 0 ∨ answers.created
  · have hfile : ef'.files (keyFile key) =
        some (content ef.files (keyFile key)) := by
      rw [hfiles, LfsWriteAnswers.fileOpen, if_pos hmade, create_self]
    exact (stillReturns_iff hopens.lfs (hlfs.trans hopens.lfs) hopens.fits
      hfile).mpr rfl
  · apply stillReturns_of_files hlfs
    rw [hfiles, LfsWriteAnswers.fileOpen, if_neg hmade]

/-- What is left to show of a call that comes to the open. -/
theorem keyValueDurable_of_set {ef ef' : EasyFlash} {code : EfErrCode}
    (hset : efSetEnvBlob answers (some key) (some value) value.length ef =
      .ok (code, ef'))
    (hmove : WriteMove answers (keyFile key) value ef.files code ef'.files)
    (hlfs : ef'.lfs = ef.lfs) (hlock : ef'.envGiantLock = ef.envGiantLock) :
    KeyValueDurable answers key value ef ↔
      (code = .noErr → ReturnsValue key value ef') ∧
        (code ≠ .noErr → StillReturns key ef ef') := by
  constructor
  · rintro ⟨code', ef'', hset', -, -, hdone, hfailed⟩
    obtain ⟨rfl, rfl⟩ := Prod.mk.inj (Except.ok.inj (hset.symm.trans hset'))
    exact ⟨fun h => (hdone h).1, hfailed⟩
  · rintro ⟨hdone, hfailed⟩
    refine ⟨code, ef', hset, hlock, ?_, fun h => ⟨hdone h, ?_⟩, hfailed⟩
    · intro _ _ _ _ _ _ _ hget
      exact (efGetEnvBlobOffset_keeps hget).2
    · intro key' hkey' buf
      apply readBack_congr buf hlfs
      exact hmove.files_of_ne fun hfile => hkey' (keyFile_injective hfile)

/-- A value that is not empty is the contents of a file that exists. -/
theorem content_eq_iff {files : Files Bytes UInt8} {path : Bytes}
    (hvalue : value ≠ []) :
    content files path = value ↔ files path = some value := by
  rw [content]
  cases files path with
  | none =>
      exact ⟨fun h => absurd h.symm hvalue,
        fun h => absurd h.symm (Option.some_ne_none value)⟩
  | some c => exact ⟨congrArg some, Option.some.inj⟩

/-- After a complete write the value is there exactly when the close wrote it or it
was there before. -/
theorem returnsValue_of_done {ef ef' : EasyFlash} (hopens : SetOpens key value ef)
    (hlfs : ef'.lfs = ef.lfs)
    (hfiles : ef'.files =
      answers.fileClose (keyFile key) value (create ef.files (keyFile key))) :
    ReturnsValue key value ef' ↔
      answers.closeRet = 0 ∨ ef.files (keyFile key) = some value := by
  rw [returnsValue_iff (hlfs.trans hopens.lfs) hopens.fits, hfiles,
    fileClose_create, Option.some.injEq]
  by_cases hok : answers.closeRet = 0
  · rw [if_pos hok]
    exact ⟨fun _ => Or.inl hok, fun _ => rfl⟩
  · rw [if_neg hok, content_eq_iff hopens.value]
    exact ⟨Or.inr, fun h => h.resolve_left hok⟩

end Moves

/-- A key value is durable exactly when the close cannot spoil the result. -/
theorem keyValueDurable_iff (answers : LfsWriteAnswers) (key : CText)
    (value : Bytes) (ef : EasyFlash) :
    KeyValueDurable answers key value ef ↔ Settles answers key value ef := by
  by_cases hopens : SetOpens key value ef
  · obtain ⟨code, ef', hset, hmove, hlfs, hlock⟩ :=
      efSetEnvBlob_opened answers hopens
    rw [keyValueDurable_of_set hset hmove hlfs hlock]
    have hclose := fileClose_create answers (keyFile key)
    generalize hfiles : ef'.files = files' at hmove
    cases hmove with
    | openFailed hopen =>
        constructor
        · intro _
          exact ⟨fun _ h => absurd h hopen, fun _ h => absurd h hopen⟩
        · intro _
          exact ⟨nofun, fun _ => stillReturns_of_openFailed hopens hlfs hfiles⟩
    | failed hopen hfail =>
        have hstill := stillReturns_iff hopens.lfs (hlfs.trans hopens.lfs)
          hopens.fits ((congrFun hfiles _).trans (hclose _ ef.files))
        constructor
        · rintro ⟨-, hkept⟩
          refine ⟨fun _ _ hwrite htruncate => absurd ⟨hwrite, htruncate⟩ hfail, ?_⟩
          intro _ _ _ hok
          have hfile := hstill.mp (hkept nofun)
          rwa [if_pos hok] at hfile
        · intro h
          refine ⟨nofun, fun _ => hstill.mpr ?_⟩
          by_cases hok : answers.closeRet = 0
          · rw [if_pos hok]
            exact h.kept hopens hopen hfail hok
          · rw [if_neg hok]
    | done hopen hwrite htruncate =>
        have hreturns := returnsValue_of_done hopens hlfs hfiles
        constructor
        · rintro ⟨hdone, -⟩
          refine ⟨fun _ _ _ _ => hreturns.mp (hdone rfl), ?_⟩
          exact fun _ _ hfail => absurd ⟨hwrite, htruncate⟩ hfail
        · intro h
          refine ⟨fun _ => hreturns.mpr ?_, fun hne => absurd rfl hne⟩
          exact h.written hopens hopen hwrite htruncate
  · obtain ⟨code, ef', hset, hcode, hsame, hlock⟩ :=
      efSetEnvBlob_refused answers hopens
    constructor
    · intro _
      exact ⟨fun h => absurd h hopens, fun h => absurd h hopens⟩
    · intro _
      refine ⟨code, ef', hset, hlock, ?_, fun h => absurd h hcode, fun _ => ?_⟩
      · intro _ _ _ _ _ _ _ hget
        exact (efGetEnvBlobOffset_keeps hget).2
      · exact stillReturns_of_files hsame.lfs (congrFun hsame.files _)

/-- The flash is full when the file is closed: `LFS_ERR_NOSPC`. -/
def fullAtClose : LfsWriteAnswers where
  openRet := 0
  created := false
  writeRet := 1
  writeLeft := []
  truncateRet := 0
  truncateLeft := []
  closeRet := -28

/-- The value is reported as stored, and a read finds an empty file. -/
theorem not_keyValueDurable_full :
    ¬ ∀ answers key value ef, KeyValueDurable answers key value ef := by
  intro h
  let key : CText := ⟨[0x6B], by decide⟩
  have hopens : SetOpens key [1] emptyFlash := ⟨rfl, by decide, by decide⟩
  obtain ⟨code, ef', hset, -, -, hdone, -⟩ := h fullAtClose key [1] emptyFlash
  obtain ⟨code', ef'', hset', hmove, hlfs, -⟩ :=
    efSetEnvBlob_opened fullAtClose hopens
  obtain ⟨rfl, rfl⟩ := Prod.mk.inj (Except.ok.inj (hset.symm.trans hset'))
  generalize hfiles : ef'.files = files' at hmove
  cases hmove with
  | openFailed hopen => exact hopen rfl
  | failed _ hfail => exact hfail ⟨rfl, rfl⟩
  | done _ _ _ =>
      rcases (returnsValue_of_done hopens hlfs hfiles).mp (hdone rfl).1 with
        hclose | hfile
      · exact absurd hclose (by decide)
      · nomatch hfile

end RtpMulticast
