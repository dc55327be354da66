import RtpMulticast.Lwip.HttpRequestText

/-!
# The body of a POST or PUT

The body is printed as a string behind a length of up to ten digits, to a buffer
that leaves fourteen bytes for the method, the digits and the terminator.  What
follows is which bodies arrive as they are.
-/

namespace RtpMulticast

open ByteBuffer CStrings Text

inductive UploadMethod where
  | put
  | post
  deriving DecidableEq, Repr

def UploadMethod.reqType : UploadMethod → HttpReqType
  | put => .put
  | post => .post

def UploadMethod.name : UploadMethod → Bytes
  | put => ascii "PUT"
  | post => ascii "POST"

/-- The arguments of a POST or PUT; `address` is the address of the server as
text. -/
structure HttpUpload where
  method : UploadMethod
  uri : CText
  serverName : Option CText
  address : CText
  postData : Option HttpPostData

namespace HttpUpload

def hostName (u : HttpUpload) : Bytes :=
  (httpHostName u.serverName u.address).1

def body (u : HttpUpload) : Bytes := (u.postData.bind (·.data)).getD []

/-- The content type of the body; without one it is plain text. -/
def contentType (u : HttpUpload) : Bytes :=
  httpContentType
    (if u.body = [] then 0 else (u.postData.map (·.type)).getD 0)

/-- The object that `HTTP_Client_Request` makes of the arguments; the caller
passes the number of bytes of the body. -/
def taskObj (u : HttpUpload) : HttpTaskObj where
  reqType := u.method.reqType
  uri := u.uri
  serverName := u.serverName
  address := u.address
  postData := httpCopyPostData u.postData (UInt32.ofNat u.body.length)
  postDataLen := UInt32.ofNat u.body.length

def header (u : HttpUpload) : Bytes :=
  httpUploadHeader u.method.name u.uri.1 u.hostName u.contentType
    (decimal u.body.length)

/-- A request is sent, and a peer that takes all of it gets the header, with the
length of the body in it, and the body. -/
def CarriesBody (nullText : Bytes) (u : HttpUpload) : Prop :=
  ∃ data, httpClientTaskRequest nullText u.taskObj = some data ∧
    ∀ results, (httpSend results data []).1 = .sent →
      (httpSend results data []).2 = u.header ++ u.body

/-- What the size of the buffer counts. -/
def size (u : HttpUpload) : ℕ :=
  httpcReqPostPut11.length + u.uri.1.length + httpClientAgent.length +
    u.hostName.length + u.body.length + u.contentType.length

/-- The bodies that arrive.  A length of ten digits takes the byte of the buffer
that the terminator needs behind a POST, not behind the shorter PUT. -/
structure Fits (nullText : Bytes) (u : HttpUpload) : Prop where
  nothing : u.body = [] → nullText = []
  string : 0 ∉ u.body
  size_lt : u.size < 2 ^ 31
  digits : u.method = .post → u.body.length < 10 ^ 9

theorem carriesBody_iff_request (nullText : Bytes) (u : HttpUpload) :
    u.CarriesBody nullText ↔
      httpClientTaskRequest nullText u.taskObj = some (u.header ++ u.body) := by
  constructor
  · rintro ⟨data, hdata, hsent⟩
    have hend : httpSend [.sent data.length] data [] = (.sent, data) := by
      simp [httpSend]
    have hwire := hsent [.sent data.length]
    rw [hend] at hwire
    exact hdata.trans (congrArg some (hwire rfl))
  · intro h
    exact ⟨_, h, fun results hsent => httpSend_sent hsent⟩

/-- What is printed in place of the body. -/
def printedBody (nullText : Bytes) (u : HttpUpload) : Bytes :=
  if u.body = [] then nullText else stringOf u.body

theorem postData_taskObj {u : HttpUpload} (h : u.body.length < 2 ^ 32)
    (nullText : Bytes) :
    httpContentType u.taskObj.postData.type = u.contentType ∧
      printedString nullText u.taskObj.postData.data =
        u.printedBody nullText := by
  have hlen : (UInt32.ofNat u.body.length).toNat = u.body.length :=
    UInt32.toNat_ofNat_of_lt' h
  rw [taskObj, contentType, printedBody]
  by_cases hbody : u.body = []
  · have hzero : httpCopyPostData u.postData (UInt32.ofNat u.body.length) =
        ⟨none, 0⟩ := by
      rw [hbody]
      exact httpCopyPostData_zero u.postData
    rw [hzero, if_pos hbody, if_pos hbody]
    exact ⟨rfl, rfl⟩
  · obtain ⟨data, type, hpost, hdata⟩ :
        ∃ data type, u.postData = some ⟨some data, type⟩ ∧ u.body = data := by
      rw [body] at hbody ⊢
      generalize u.postData = postData at hbody ⊢
      rcases postData with - | ⟨- | data, type⟩
      · exact (hbody rfl).elim
      · exact (hbody rfl).elim
      · exact ⟨data, type, rfl, rfl⟩
    have hpos : 0 < UInt32.ofNat u.body.length := by
      rw [UInt32.lt_iff_toNat_lt, hlen]
      exact List.length_pos_iff.mpr hbody
    have hcopy : httpCopyPostData u.postData (UInt32.ofNat u.body.length) =
        ⟨some (u.body ++ [0]), type⟩ := by
      rw [hpost, httpCopyPostData, if_pos hpos, hlen, hdata,
        List.take_of_length_le le_rfl]
    rw [hcopy, if_neg hbody, if_neg hbody, hpost]
    exact ⟨rfl, stringOf_append_zeros u.body 1⟩

/-- The request of a body whose length is a 32-bit number that is not
negative. -/
theorem httpClientTaskRequest_taskObj {u : HttpUpload}
    (h : u.body.length < 2 ^ 31) (nullText : Bytes) :
    httpClientTaskRequest nullText u.taskObj =
      httpPrintRequest u.size (u.header ++ u.printedBody nullText) := by
  have hlen : (UInt32.ofNat u.body.length).toNat = u.body.length :=
    UInt32.toNat_ofNat_of_lt' (Nat.lt_trans h (by decide))
  have hprinted : Int.bmod u.body.length (2 ^ 32) = u.body.length :=
    Int.bmod_eq_of_le (by omega) (by omega)
  obtain ⟨htype, hdata⟩ :=
    postData_taskObj (Nat.lt_trans h (by decide)) nullText
  have hupload : httpClientTaskRequest nullText u.taskObj =
      httpUploadRequest nullText u.method.name u.hostName u.taskObj := by
    rcases u with ⟨- | -, uri, serverName, address, postData⟩
    · simp only [httpClientTaskRequest, taskObj, UploadMethod.reqType,
        UploadMethod.name, hostName]
    · simp only [httpClientTaskRequest, taskObj, UploadMethod.reqType,
        UploadMethod.name, hostName]
  rw [hupload, httpUploadRequest, htype, hdata, format_httpcReqPostPut11]
  rw [taskObj, hlen, hprinted, signedDecimal_natCast]
  rfl

/-- Only the body itself is printed with as many bytes as the body has. -/
theorem printedBody_eq_of_length {u : HttpUpload} {nullText : Bytes}
    (h : (u.printedBody nullText).length = u.body.length) :
    u.printedBody nullText = u.body := by
  rw [printedBody] at h ⊢
  by_cases hbody : u.body = []
  · rw [if_pos hbody, hbody] at h ⊢
    exact List.eq_nil_of_length_eq_zero h
  · rw [if_neg hbody] at h ⊢
    exact (stringOf_isPrefix u.body).eq_of_length h

theorem printedBody_eq_iff (u : HttpUpload) (nullText : Bytes) :
    u.printedBody nullText = u.body ↔
      (u.body = [] → nullText = []) ∧ 0 ∉ u.body := by
  rw [printedBody]
  by_cases hbody : u.body = []
  · simp [hbody]
  · rw [if_neg hbody, stringOf, List.takeWhile_eq_self_iff]
    constructor
    · intro h
      refine ⟨fun hnil => absurd hnil hbody, fun hmem => ?_⟩
      exact of_decide_eq_true (h 0 hmem) rfl
    · rintro ⟨-, hzero⟩ b hb
      exact decide_eq_true fun heq => hzero (heq ▸ hb)

theorem length_header (u : HttpUpload) :
    u.header.length + u.body.length + 14 =
      u.size + u.method.name.length + (decimal u.body.length).length := by
  have hheader := length_httpUploadHeader u.method.name u.uri.1 u.hostName
    u.contentType (decimal u.body.length)
  rw [header, size]
  omega

theorem length_name (method : UploadMethod) :
    method.name.length = if method = .post then 4 else 3 := by
  cases method with
  | put => rfl
  | post => rfl

/-- The last byte of a request as long as its buffer is replaced by the
terminator. -/
theorem digits_of_request {u : HttpUpload} {nullText : Bytes}
    (hprinted : u.printedBody nullText = u.body) (hzero : 0 ∉ u.body)
    (hsize : u.size < 2 ^ 31)
    (h : httpPrintRequest u.size (u.header ++ u.printedBody nullText) =
      some (u.header ++ u.body))
    (hpost : u.method = .post) : u.body.length < 10 ^ 9 := by
  by_contra hlong
  rw [hprinted] at h
  obtain ⟨-, hlt, hreqLen⟩ := httpPrintRequest_some h
  have hheader := length_header u
  have hname : u.method.name.length = 4 := by
    rw [length_name, if_pos hpost]
  have hdigits : ¬ (decimal u.body.length).length ≤ 9 := fun hle =>
    hlong ((length_decimal_le_iff (by decide)).mp hle)
  have hbmod : Int.bmod u.size (2 ^ 32) = u.size :=
    Int.bmod_eq_of_le (by omega) (by omega)
  have hlength : (u.header ++ u.body).length = u.size := by
    rw [List.length_append] at hreqLen ⊢
    omega
  have hne : u.header ++ u.body ≠ [] := by
    apply List.ne_nil_of_length_pos
    rw [List.length_append]
    omega
  rw [httpPrintRequest_eq hsize hne hlength.le, ← hlength,
    take_snprintfBuffer_self hne] at h
  have hlast : [0] <:+ u.header ++ u.body := ⟨_, Option.some.inj h⟩
  have hsuffix : [0] <:+ u.body := by
    apply List.suffix_of_suffix_length_le hlast (List.suffix_append _ _)
    rw [List.length_singleton]
    omega
  exact hzero (hsuffix.subset (List.mem_singleton_self 0))

theorem fits_of_request {u : HttpUpload} {nullText : Bytes}
    (h : httpClientTaskRequest nullText u.taskObj =
      some (u.header ++ u.body)) :
    u.Fits nullText := by
  have hbody : u.body.length < 2 ^ 31 := by
    have hdata := length_httpClientTaskRequest h
    rw [List.length_append] at hdata
    omega
  rw [httpClientTaskRequest_taskObj hbody] at h
  obtain ⟨hlength, hlt, hreqLen⟩ := httpPrintRequest_some h
  rw [List.length_append, List.length_append] at hlength
  have hprinted : u.printedBody nullText = u.body :=
    printedBody_eq_of_length (by omega)
  obtain ⟨hnothing, hstring⟩ := (printedBody_eq_iff u nullText).mp hprinted
  rw [hprinted, List.length_append] at hlt hreqLen
  have hheader := length_header u
  have hsize : u.size < 2 ^ 31 := by
    -- Fourteen bytes of the format are conversions, so the size is hardly more
    -- than the length of the text, and as an `int32_t` it is negative.
    by_contra hlarge
    have hmod : (u.size : ℤ) % (2 ^ 32 : ℕ) = u.size := by omega
    have hbmod : Int.bmod u.size (2 ^ 32) = u.size - 2 ^ 32 := by
      rw [Int.bmod_def, hmod, if_neg (by omega)]
      rfl
    omega
  exact ⟨hnothing, hstring, hsize, digits_of_request hprinted hstring hsize h⟩

theorem request_of_fits {u : HttpUpload} {nullText : Bytes}
    (h : u.Fits nullText) :
    httpClientTaskRequest nullText u.taskObj =
      some (u.header ++ u.body) := by
  have hprinted : u.printedBody nullText = u.body :=
    (printedBody_eq_iff u nullText).mpr ⟨h.nothing, h.string⟩
  have hsize : u.body.length + 148 ≤ u.size := by
    rw [size, length_httpcReqPostPut11]
    omega
  have hsizeLt := h.size_lt
  have hbody : u.body.length < 2 ^ 31 := by omega
  have hheader := length_header u
  have hlength : (u.header ++ u.body).length < u.size := by
    rw [List.length_append]
    by_cases hpost : u.method = .post
    · have hname : u.method.name.length = 4 := by
        rw [length_name, if_pos hpost]
      have hdigits : (decimal u.body.length).length ≤ 9 :=
        (length_decimal_le_iff (by decide)).mpr (h.digits hpost)
      omega
    · have hname : u.method.name.length = 3 := by
        rw [length_name, if_neg hpost]
      have hdigits : (decimal u.body.length).length ≤ 10 :=
        (length_decimal_le_iff (by decide)).mpr
          (Nat.lt_trans hbody (by decide))
      omega
  have hne : u.header ++ u.body ≠ [] := by
    apply List.ne_nil_of_length_pos
    rw [List.length_append]
    omega
  rw [httpClientTaskRequest_taskObj hbody, hprinted,
    httpPrintRequest_eq h.size_lt hne hlength.le, take_snprintfBuffer hlength]

/-- The requests that carry their body unchanged are exactly those whose body is
a string, with room for its length. -/
theorem carriesBody_iff (nullText : Bytes) (u : HttpUpload) :
    u.CarriesBody nullText ↔ u.Fits nullText := by
  rw [carriesBody_iff_request]
  constructor
  · exact fits_of_request
  · exact request_of_fits

/-- A POST of the byte string `a`, zero, `b`: the request ends behind the `a`,
with a content length of three. -/
def postWithZero : HttpUpload where
  method := .post
  uri := ⟨ascii "/", by decide⟩
  serverName := none
  address := ⟨ascii "192.168.8.1", by decide⟩
  postData := some ⟨some [0x61, 0, 0x62], 4⟩

theorem not_carriesBody_zero :
    ¬ ∀ (nullText : Bytes) (u : HttpUpload), u.CarriesBody nullText := by
  intro h
  have hrequest := (carriesBody_iff_request [] postWithZero).mp (h [] postWithZero)
  exact absurd (fits_of_request hrequest).string (by decide)

end HttpUpload

end RtpMulticast
