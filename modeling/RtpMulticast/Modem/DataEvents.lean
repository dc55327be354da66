import RtpMulticast.Modem.CmdHandler

/-!
# Data in direct messages

The functions of the direct commands that carry data read numbers off the receive
buffer, up to the NUL they put behind it, and copy the bytes that the last number
counts.  They answer how much they took, or that the message is not complete.
-/

namespace RtpMulticast

open ByteBuffer CStrings

/-! ## Numbers in the receive buffer -/

/-- `rx_buf[rx_buf_len] = 0`. -/
def terminateRxBuf (rxBuf : Bytes) : Except Fault Unit :=
  if rxBuf.length < rxBufSize then .ok () else .error .outOfBounds

/-- `strtol` at a place of the buffer: the value, and where it stops. -/
def rxStrtol (rxBuf : Bytes) (pos : ℕ) : ℤ × ℕ :=
  let (value, used) := strtol (stringOf (rxBuf.drop pos))
  (value, pos + used)

/-- A byte of the buffer or the NUL behind it. -/
def rxByte (rxBuf : Bytes) (pos : ℕ) : UInt8 := rxBuf.getD pos 0

/-- A number with its comma: the value and the place behind the comma.  Only where it is
`required` a missing number is an error. -/
def rxNumber (required : Bool) (rxBuf : Bytes) (pos : ℕ) : Option (ℤ × ℕ) :=
  let (value, stop) := rxStrtol rxBuf pos
  if required = true ∧ stop = pos then none
  else if rxByte rxBuf stop ≠ 0x2C then none
  else some (value, stop + 1)

/-- Numbers one behind the other, each with its comma. -/
def rxNumbers (rxBuf : Bytes) : ℕ → ℕ → Option (List ℤ × ℕ)
  | 0, pos => some ([], pos)
  | n + 1, pos =>
      match rxNumber false rxBuf pos with
      | none => none
      | some (value, pos) =>
          match rxNumbers rxBuf n pos with
          | none => none
          | some (values, pos) => some (value :: values, pos)

/-! ## Counted data -/

/-- What `on_cmd_pulldata`, `on_cmd_read_efuse` and `on_cmd_fs_readfile` share: a length,
a comma and the data, which go to an object of `size` bytes. -/
def rxCounted (size : ℕ) (rxBuf : Bytes) (len : ℕ) : Except Fault (ℤ × Option Bytes) := do
  terminateRxBuf rxBuf
  match rxNumber true rxBuf len with
  | none => return (-EINVAL, none)
  | some (value, offset) =>
      let rxDataLen := (value % 2 ^ 16).toNat
      if offset + rxDataLen ≤ rxBuf.length then do
        let data ← copyOut rxBuf offset rxDataLen
        if rxDataLen ≤ size then return (offset + rxDataLen, some data)
        else .error .outOfBounds
      else return (-EAGAIN, none)

/-- `on_cmd_pulldata`; the buffer of the socket has `reqlen` bytes. -/
def onCmdPulldata (reqlen : ℕ) : Bytes → ℕ → Except Fault (ℤ × Option Bytes) :=
  rxCounted reqlen

/-- `on_cmd_read_efuse`. -/
def onCmdReadEfuse (nbytes : ℕ) : Bytes → ℕ → Except Fault (ℤ × Option Bytes) :=
  rxCounted nbytes

/-- `on_cmd_fs_readfile`. -/
def onCmdFsReadfile (nbytes : ℕ) : Bytes → ℕ → Except Fault (ℤ × Option Bytes) :=
  rxCounted nbytes

/-! ## Data of a Bluetooth peer -/

/-- The events of `W61_Ble_Data_Event`. -/
inductive BleDataId where
  | read
  | write
  | notification
  deriving DecidableEq, Repr

/-- How many indices follow the connection handle: service and characteristic, or the
handle of the characteristic value. -/
def BleDataId.indices : BleDataId → ℕ
  | .read => 2
  | .write => 2
  | .notification => 1

/-- What `UL_ble_cb` is told, with the data in the buffer of the application. -/
structure BleDataParam where
  eventId : BleDataId
  connHandle : ℕ
  indices : List ℕ
  data : Bytes
  deriving DecidableEq, Repr

/-- The width of the field for an index: `charac_value_handle` has 16 bits. -/
def BleDataId.indexWidth : BleDataId → ℕ
  | .read => 8
  | .write => 8
  | .notification => 16

/-- `W61_Ble_Data_Event` from the length on, which is at `pos`. -/
def bleDataCopy (size : ℕ) (eventId : BleDataId) (conn : ℤ) (indices : List ℤ)
    (rxBuf : Bytes) (pos : ℕ) : Except Fault (ℤ × Option BleDataParam) :=
  let (value, stop) := rxStrtol rxBuf pos
  let dataLen := (value % 2 ^ 32).toNat
  if rxByte rxBuf stop ≠ 0x2C ∨ dataLen = 0 then .ok (stop, none)
  else if size < dataLen then .ok (-ENOMEM, none)
  else
    let rxDataLen := (stop + 1 + dataLen) % 2 ^ 16
    if rxDataLen ≤ rxBuf.length then do
      let data ← copyOut rxBuf (stop + 1) dataLen
      return (rxDataLen, some
        { eventId := eventId
          connHandle := (conn % 2 ^ 8).toNat
          indices := indices.map fun i => (i % 2 ^ eventId.indexWidth).toNat
          data := data })
    else .ok (-EAGAIN, none)

/-- `W61_Ble_Data_Event`; `appBuff` is the size of `AppBuffRecvData`, if that is set. -/
def bleDataEvent (appBuff : Option ℕ) (eventId : BleDataId) (rxBuf : Bytes) (len : ℕ) :
    Except Fault (ℤ × Option BleDataParam) :=
  match appBuff with
  | none => .ok (-EINVAL, none)
  | some size =>
      if rxBuf.length ≤ len then .ok (-EINVAL, none)
      else do
        terminateRxBuf rxBuf
        match rxNumber true rxBuf len with
        | none => return (-EINVAL, none)
        | some (conn, pos) =>
            match rxNumbers rxBuf eventId.indices pos with
            | none => return (-EINVAL, none)
            | some (indices, pos) => bleDataCopy size eventId conn indices rxBuf pos

/-- `on_cmd_ble_write_data_event`, `on_cmd_ble_read_data_event` and
`on_cmd_ble_noti_data_event`: without `Ble_event_data_cb` the answer is 0. -/
def onCmdBleDataEvent (registered : Bool) (appBuff : Option ℕ) (eventId : BleDataId)
    (rxBuf : Bytes) (len : ℕ) : Except Fault (ℤ × Option BleDataParam) :=
  if registered = true then bleDataEvent appBuff eventId rxBuf len else .ok (0, none)

/-! ## Messages of an MQTT subscription -/

/-- The buffer of the application after a message, and what `UL_mqtt_cb` is told. -/
structure MqttDataParam where
  topic : Bytes
  message : Bytes
  deriving DecidableEq, Repr

/-- `W61_MQTT_Data_Event`.  The link id and its comma are skipped unseen, so that the
numbers may be read from `stale`, what lies in the buffer behind the NUL. -/
def mqttDataEvent (appBuff : Option ℕ) (stale rxBuf : Bytes) (len : ℕ) :
    Except Fault (ℤ × Option MqttDataParam) :=
  match appBuff with
  | none => .ok (-EINVAL, none)
  | some size => do
      terminateRxBuf rxBuf
      let area := rxBuf ++ 0 :: stale
      match rxNumber true area (len + 2) with
      | none => return (-EINVAL, none)
      | some (topic, pos) =>
          let topicLen := (topic + 2) % 2 ^ 32
          match rxNumber false area pos with
          | none => return (-EINVAL, none)
          | some (message, headerLen) =>
              let messageLen := message % 2 ^ 32
              if (size : ℤ) < (topicLen + messageLen + 1) % 2 ^ 32 then return (-ENOMEM, none)
              else
                let rxDataLen := ((headerLen + topicLen + messageLen + 1) % 2 ^ 16).toNat
                if rxDataLen ≤ rxBuf.length then do
                  let topic ← copyOut area headerLen topicLen.toNat
                  let message ←
                    copyOut area (headerLen + topicLen.toNat + 1) messageLen.toNat
                  return (rxDataLen, some ⟨topic, message⟩)
                else return (-EAGAIN, none)

end RtpMulticast
