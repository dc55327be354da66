import RtpMulticast.Lwip.HttpBody
import RtpMulticast.Support.Text

/-!
# The text of an HTTP request

`HTTP_Client_Request` copies the body of a POST or PUT, `HTTP_Client_task`
prints the request to a buffer whose size it computes from the format and the
arguments, and sends as many bytes as the print reports.  The body is printed
as a string behind its length.
-/

namespace RtpMulticast

open ByteBuffer CStrings Text

/-! ## The request -/

/-- `HTTPC_REQ_HEAD_11`. -/
def httpcReqHead11 : Bytes :=
  ascii ("HEAD %s HTTP/1.1\r\n" ++
    "User-Agent: %s\r\n" ++
    "Accept: */*\r\n" ++
    "Host: %s\r\n" ++
    "Connection: close\r\n" ++
    "\r\n")

/-- `HTTPC_REQ_11_HOST`. -/
def httpcReq11Host : Bytes :=
  ascii ("GET %s HTTP/1.1\r\n" ++
    "User-Agent: %s\r\n" ++
    "Accept: */*\r\n" ++
    "Host: %s\r\n" ++
    "Connection: close\r\n" ++
    "\r\n")

/-- `HTTPC_REQ_POST_PUT_11`. -/
def httpcReqPostPut11 : Bytes :=
  ascii ("%s %s HTTP/1.1\r\n" ++
    "User-Agent: %s\r\n" ++
    "Accept: */*\r\n" ++
    "Accept-Encoding: deflate, gzip\r\n" ++
    "Host: %s\r\n" ++
    "Content-Type: %s\r\n" ++
    "Content-Length: %d\r\n" ++
    "Connection: close\r\n" ++
    "\r\n%s")

/-- `HTTP_CLIENT_AGENT`. -/
def httpClientAgent : Bytes := ascii "stm32/1.0"

/-- `http_content_type_str`. -/
def httpContentTypeStr : List Bytes :=
  [ascii "text/plain", ascii "application/x-www-form-urlencoded",
    ascii "application/json", ascii "application/xml",
    ascii "application/octet-stream"]

/-- The string of a content type; types behind the last one are plain text. -/
def httpContentType (type : ℕ) : Bytes :=
  if 4 < type then httpContentTypeStr.getD 0 []
  else httpContentTypeStr.getD type []

/-- `HTTP_SNI_MAX_SIZE`. -/
def httpSniMaxSize : ℕ := 64

/-- `host_name`: the name of the server where it fits, else its address as
text. -/
def httpHostName (serverName : Option CText) (address : CText) : CText :=
  match serverName with
  | some name => if name.1.length ≤ httpSniMaxSize then name else address
  | none => address

/-- `HTTP_Post_Data_t`; `data` is null or points to an object. -/
structure HttpPostData where
  data : Option Bytes
  type : ℕ
  deriving DecidableEq, Repr

/-- What the object of the task keeps of the body: a copy with a terminator
behind it, or zeros where there is nothing to copy. -/
def httpCopyPostData (postData : Option HttpPostData) (postDataLen : UInt32) :
    HttpPostData :=
  match postData with
  | some ⟨some data, type⟩ =>
      if 0 < postDataLen then
        ⟨some (data.take postDataLen.toNat ++ [0]), type⟩
      else ⟨none, 0⟩
  | _ => ⟨none, 0⟩

/-- The object of the task, `struct http_request_task_obj`. -/
structure HttpTaskObj where
  reqType : HttpReqType
  uri : CText
  serverName : Option CText
  address : CText
  postData : HttpPostData
  postDataLen : UInt32

/-- What `%s` prints; for a null pointer that is up to the library. -/
def printedString (nullText : Bytes) : Option Bytes → Bytes
  | none => nullText
  | some data => stringOf data

/-- A request printed to a buffer of the computed size.  Nothing is sent when
the print reports an error or more than that size; otherwise the reported number
of bytes is. -/
def httpPrintRequest (size : ℕ) (text : Bytes) : Option Bytes :=
  let reqLen := Int.bmod size (2 ^ 32)
  let reqLen2 := snprintfResult text
  if reqLen2 ≤ 0 ∨ reqLen < reqLen2 then none
  else some ((snprintfBuffer reqLen.toNat text).take reqLen2.toNat)

/-- A request without a body. -/
def httpHostRequest (fmt uri host : Bytes) : Option Bytes :=
  httpPrintRequest
    (fmt.length + uri.length + httpClientAgent.length + host.length)
    (format fmt [uri, httpClientAgent, host])

/-- A request with a body. -/
def httpUploadRequest (nullText method host : Bytes) (obj : HttpTaskObj) :
    Option Bytes :=
  let contentType := httpContentType obj.postData.type
  httpPrintRequest
    (httpcReqPostPut11.length + obj.uri.1.length + httpClientAgent.length +
      host.length + obj.postDataLen.toNat + contentType.length)
    (format httpcReqPostPut11
      [method, obj.uri.1, httpClientAgent, host, contentType,
        signedDecimal (Int.bmod obj.postDataLen.toNat (2 ^ 32)),
        printedString nullText obj.postData.data])

/-- The bytes that `HTTP_Client_task` hands to the socket. -/
def httpClientTaskRequest (nullText : Bytes) (obj : HttpTaskObj) :
    Option Bytes :=
  let hostName := (httpHostName obj.serverName obj.address).1
  match obj.reqType with
  | .head => httpHostRequest httpcReqHead11 obj.uri.1 hostName
  | .get => httpHostRequest httpcReq11Host obj.uri.1 hostName
  | .put => httpUploadRequest nullText (ascii "PUT") hostName obj
  | .post => httpUploadRequest nullText (ascii "POST") hostName obj

/-! ## Sending -/

/-- The answers of `send`: an error or a number of bytes. -/
inductive SendResult where
  | error
  | sent (n : ℕ)
  deriving DecidableEq, Repr

inductive SendEnd where
  | sending
  | failed
  | sent
  deriving DecidableEq, Repr

/-- The loop around `send`, with the bytes that are on the wire. -/
def httpSend : List SendResult → Bytes → Bytes → SendEnd × Bytes
  | [], _, wire => (.sending, wire)
  | .error :: _, _, wire => (.failed, wire)
  | .sent n :: results, data, wire =>
      let wire := wire ++ data.take n
      if 0 < (data.drop n).length then httpSend results (data.drop n) wire
      else (.sent, wire)

/-- The bytes on the wire are a front part of the request, all of it when the
loop ends without an error. -/
theorem httpSend_wire (results : List SendResult) (data wire : Bytes) :
    ∃ rest, (httpSend results data wire).2 ++ rest = wire ++ data ∧
      ((httpSend results data wire).1 = .sent → rest = []) := by
  induction results generalizing data wire with
  | nil => exact ⟨data, rfl, nofun⟩
  | cons result results ih =>
      cases result with
      | error => exact ⟨data, rfl, nofun⟩
      | sent n =>
          have hsplit : wire ++ data.take n ++ data.drop n = wire ++ data := by
            rw [List.append_assoc, List.take_append_drop]
          by_cases hrest : 0 < (data.drop n).length
          · have hstep : httpSend (.sent n :: results) data wire =
                httpSend results (data.drop n) (wire ++ data.take n) := by
              simp only [httpSend, if_pos hrest]
            rw [hstep, ← hsplit]
            exact ih (data.drop n) (wire ++ data.take n)
          · have hstep : httpSend (.sent n :: results) data wire =
                (.sent, wire ++ data.take n) := by
              simp only [httpSend, if_neg hrest]
            have hnil : data.drop n = [] :=
              List.eq_nil_of_length_eq_zero (Nat.eq_zero_of_not_pos hrest)
            rw [hstep]
            refine ⟨[], ?_, fun _ => rfl⟩
            rw [← hsplit, hnil]

theorem httpSend_sent {results : List SendResult} {data : Bytes}
    (h : (httpSend results data []).1 = .sent) :
    (httpSend results data []).2 = data := by
  obtain ⟨rest, hwire, hrest⟩ := httpSend_wire results data []
  rwa [hrest h, List.append_nil, List.nil_append] at hwire

theorem httpCopyPostData_zero (postData : Option HttpPostData) :
    httpCopyPostData postData 0 = ⟨none, 0⟩ := by
  rcases postData with - | ⟨- | data, type⟩
  · rfl
  · rfl
  · rfl

/-! ## Printing -/

theorem httpPrintRequest_some {size : ℕ} {text data : Bytes}
    (h : httpPrintRequest size text = some data) :
    data.length = text.length ∧ text.length < 2 ^ 31 ∧
      (text.length : ℤ) ≤ Int.bmod size (2 ^ 32) := by
  rw [httpPrintRequest] at h
  split at h
  · nomatch h
  · next hfits =>
      have hlength : text.length < 2 ^ 31 := by
        by_contra hlong
        rw [snprintfResult, if_neg hlong] at hfits
        omega
      rw [snprintfResult, if_pos hlength] at h hfits
      refine ⟨?_, hlength, by omega⟩
      rw [← Option.some.inj h, Int.toNat_natCast, List.length_take,
        snprintfBuffer, List.length_append, List.length_take,
        List.length_singleton]
      omega

theorem length_httpClientTaskRequest {nullText data : Bytes} {obj : HttpTaskObj}
    (h : httpClientTaskRequest nullText obj = some data) :
    data.length < 2 ^ 31 := by
  have hprint : ∃ size text, httpPrintRequest size text = some data := by
    rw [httpClientTaskRequest] at h
    split at h
    · rw [httpHostRequest] at h
      exact ⟨_, _, h⟩
    · rw [httpHostRequest] at h
      exact ⟨_, _, h⟩
    · rw [httpUploadRequest] at h
      exact ⟨_, _, h⟩
    · rw [httpUploadRequest] at h
      exact ⟨_, _, h⟩
  obtain ⟨size, text, hsome⟩ := hprint
  obtain ⟨hlength, hlt, -⟩ := httpPrintRequest_some hsome
  omega

theorem httpPrintRequest_eq {size : ℕ} {text : Bytes} (hsize : size < 2 ^ 31)
    (hne : text ≠ []) (hfits : text.length ≤ size) :
    httpPrintRequest size text =
      some ((snprintfBuffer size text).take text.length) := by
  have hpos := List.length_pos_iff.mpr hne
  have hreqLen : Int.bmod size (2 ^ 32) = size :=
    Int.bmod_eq_of_le (by omega) (by omega)
  have hresult : snprintfResult text = text.length := by
    rw [snprintfResult, if_pos (by omega)]
  rw [httpPrintRequest, hreqLen, hresult, if_neg (by omega),
    Int.toNat_natCast, Int.toNat_natCast]

/-! ## The header -/

/-- The header in front of a body, its length given as text. -/
def httpUploadHeader (method uri host contentType length : Bytes) : Bytes :=
  method ++ (ascii " " ++ (uri ++ (ascii " HTTP/1.1\r\nUser-Agent: " ++
    (httpClientAgent ++
      (ascii "\r\nAccept: */*\r\nAccept-Encoding: deflate, gzip\r\nHost: " ++
        (host ++ (ascii "\r\nContent-Type: " ++ (contentType ++
          (ascii "\r\nContent-Length: " ++ (length ++
            ascii "\r\nConnection: close\r\n\r\n"))))))))))

theorem httpcReqPostPut11_eq :
    httpcReqPostPut11 = [] ++ 0x25 :: 0x73 :: (ascii " " ++ 0x25 :: 0x73 ::
      (ascii " HTTP/1.1\r\nUser-Agent: " ++ 0x25 :: 0x73 ::
        (ascii "\r\nAccept: */*\r\nAccept-Encoding: deflate, gzip\r\nHost: " ++
          0x25 :: 0x73 :: (ascii "\r\nContent-Type: " ++ 0x25 :: 0x73 ::
            (ascii "\r\nContent-Length: " ++ 0x25 :: 0x64 ::
              (ascii "\r\nConnection: close\r\n\r\n" ++
                0x25 :: 0x73 :: [])))))) := by
  have hstring (rest : Bytes) : 0x25 :: 0x73 :: rest = ascii "%s" ++ rest := rfl
  have hnumber (rest : Bytes) : 0x25 :: 0x64 :: rest = ascii "%d" ++ rest := rfl
  rw [List.nil_append]
  simp only [hstring, hnumber, List.append_nil, ← ascii_append]
  exact congrArg ascii (by decide)

theorem format_httpcReqPostPut11 (method uri host contentType length body : Bytes) :
    format httpcReqPostPut11
        [method, uri, httpClientAgent, host, contentType, length, body] =
      httpUploadHeader method uri host contentType length ++ body := by
  rw [httpcReqPostPut11_eq]
  simp (disch := decide) only [format_conversion, format]
  simp only [httpUploadHeader, List.append_assoc, List.nil_append,
    List.append_nil]

theorem length_httpcReqPostPut11 : httpcReqPostPut11.length = 148 := by
  simp only [httpcReqPostPut11, length_ascii, String.length_append]
  decide

theorem length_httpUploadHeader (method uri host contentType length : Bytes) :
    (httpUploadHeader method uri host contentType length).length + 14 =
      httpcReqPostPut11.length + method.length + uri.length +
        httpClientAgent.length + host.length + contentType.length +
        length.length := by
  have hliterals :
      (ascii " ").length = 1 ∧ (ascii " HTTP/1.1\r\nUser-Agent: ").length = 23 ∧
      (ascii "\r\nAccept: */*\r\nAccept-Encoding: deflate, gzip\r\nHost: ").length
        = 53 ∧
      (ascii "\r\nContent-Type: ").length = 16 ∧
      (ascii "\r\nContent-Length: ").length = 18 ∧
      (ascii "\r\nConnection: close\r\n\r\n").length = 23 := by
    simp only [length_ascii]
    decide
  rw [length_httpcReqPostPut11]
  simp only [httpUploadHeader, List.length_append]
  omega

end RtpMulticast
