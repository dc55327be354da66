import RtpMulticast.Modem.DataEvents

/-!
# Cut data messages

A direct message may reach the buffer in pieces.  Only a message that is cut in its data
is waited for.  A cut in front of the comma of its length is answered by an error, or
by taking what is there for an empty message.
-/

namespace RtpMulticast

open ByteBuffer CStrings Text

/-- A number as the modem prints it. -/
structure Numeral where
  text : Bytes
  nonempty : text ≠ []
  digits : ∀ b ∈ text, isDigit b = true
  small : digitsValue text < 2 ^ 31

def Numeral.value (num : Numeral) : ℕ := digitsValue num.text

/-- Numbers, each with its comma. -/
def numerals (nums : List Numeral) : Bytes := nums.flatMap fun num => num.text ++ [0x2C]

section Reading

variable {front rest digits : Bytes}

theorem stringOf_digits (hdigits : ∀ b ∈ digits, isDigit b = true) (rest : Bytes) :
    stringOf (digits ++ rest) = digits ++ stringOf rest := by
  apply stringOf_append
  intro hmem
  exact absurd (hdigits 0 hmem) (by decide)

theorem Numeral.rxStrtol (num : Numeral) (front : Bytes) {b : UInt8} (hb : isDigit b = false)
    (hzero : b ≠ 0) (rest : Bytes) :
    rxStrtol (front ++ (num.text ++ b :: rest)) front.length =
      ((num.value : ℤ), front.length + num.text.length) := by
  have hstring : stringOf (num.text ++ b :: rest) = num.text ++ b :: stringOf rest := by
    rw [stringOf_digits num.digits]
    simp [stringOf, hzero]
  have hclamp : clampLong (digitsValue num.text) = (digitsValue num.text : ℤ) := by
    have := num.small
    unfold clampLong
    omega
  rw [RtpMulticast.rxStrtol, List.drop_left, hstring,
    strtol_digits num.nonempty num.digits hb, hclamp]
  rfl

/-- A NUL, or the end of the buffer, stops the number. -/
theorem rxStrtol_end (hdigits : ∀ b ∈ digits, isDigit b = true) (front tail : Bytes)
    (htail : stringOf tail = []) :
    (rxStrtol (front ++ (digits ++ tail)) front.length).2 = (front ++ digits).length := by
  rw [RtpMulticast.rxStrtol, List.drop_left, stringOf_digits hdigits, htail,
    List.append_nil, List.length_append]
  by_cases hne : digits = []
  · rw [hne]
    rfl
  · have hread := strtol_digits_append (s := []) hne hdigits rfl
    rw [List.append_nil] at hread
    rw [hread]

@[simp] theorem rxByte_append (front : Bytes) (b : UInt8) (rest : Bytes) :
    rxByte (front ++ b :: rest) front.length = b := by
  rw [rxByte, List.getD_eq_getElem?_getD, List.getElem?_append_right (Nat.le_refl _)]
  simp

theorem rxByte_end (front tail : Bytes) (htail : stringOf tail = []) :
    rxByte (front ++ tail) front.length = 0 := by
  cases tail with
  | nil =>
      rw [rxByte, List.append_nil, List.getD_eq_getElem?_getD,
        List.getElem?_eq_none (Nat.le_refl _), Option.getD_none]
  | cons b tail =>
      rw [rxByte_append]
      by_contra hb
      simp [stringOf, hb] at htail

theorem Numeral.rxNumber (num : Numeral) (required : Bool) (front rest : Bytes) :
    rxNumber required (front ++ (num.text ++ 0x2C :: rest)) front.length =
      some ((num.value : ℤ), (front ++ (num.text ++ [0x2C])).length) := by
  have hpos : 0 < num.text.length := List.length_pos_iff.mpr num.nonempty
  have hcomma : rxByte (front ++ (num.text ++ 0x2C :: rest))
      (front.length + num.text.length) = 0x2C := by
    rw [← List.append_assoc, ← List.length_append]
    exact rxByte_append _ _ _
  rw [RtpMulticast.rxNumber, num.rxStrtol front (by decide) (by decide)]
  dsimp only
  rw [if_neg (by omega), hcomma, if_neg (not_not.mpr rfl)]
  simp [Nat.add_assoc]

theorem rxNumber_end_tail (required : Bool) (hdigits : ∀ b ∈ digits, isDigit b = true)
    (front tail : Bytes) (htail : stringOf tail = []) :
    rxNumber required (front ++ (digits ++ tail)) front.length = none := by
  have hbyte := rxByte_end (front ++ digits) tail htail
  rw [List.append_assoc] at hbyte
  rw [rxNumber]
  dsimp only
  rw [rxStrtol_end hdigits front tail htail, hbyte]
  split
  · rfl
  · rfl

theorem rxNumber_end (required : Bool) (hdigits : ∀ b ∈ digits, isDigit b = true)
    (front : Bytes) : rxNumber required (front ++ digits) front.length = none := by
  have h := rxNumber_end_tail required hdigits front [] rfl
  rwa [List.append_nil] at h

@[simp] theorem numerals_nil : numerals [] = [] := rfl

theorem numerals_cons (num : Numeral) (nums : List Numeral) :
    numerals (num :: nums) = num.text ++ 0x2C :: numerals nums := by
  rw [numerals, List.flatMap_cons, List.append_assoc]
  rfl

theorem rxNumbers_numerals (nums : List Numeral) (front rest : Bytes) :
    rxNumbers (front ++ (numerals nums ++ rest)) nums.length front.length =
      some (nums.map fun num => (num.value : ℤ), (front ++ numerals nums).length) := by
  induction nums generalizing front with
  | nil => simp [rxNumbers]
  | cons num nums ih =>
      have hrest := ih (front ++ (num.text ++ [0x2C]))
      have hbuf : front ++ (num.text ++ [0x2C]) ++ (numerals nums ++ rest) =
          front ++ (num.text ++ 0x2C :: (numerals nums ++ rest)) := by simp
      have hstop : (front ++ (num.text ++ [0x2C]) ++ numerals nums).length =
          (front ++ (num.text ++ 0x2C :: numerals nums)).length := by simp
      rw [hbuf, hstop] at hrest
      rw [numerals_cons, List.append_assoc, List.cons_append, List.length_cons, rxNumbers,
        num.rxNumber false front (numerals nums ++ rest)]
      dsimp only
      rw [hrest]
      rfl

/-- The beginning of a numeral with its comma is digits, or goes on behind the comma. -/
theorem prefix_numeral {num : Numeral} {p rest : Bytes}
    (hp : p <+: num.text ++ 0x2C :: rest) :
    (p.length ≤ num.text.length ∧ ∀ b ∈ p, isDigit b = true) ∨
      ∃ p', p = num.text ++ 0x2C :: p' ∧ p' <+: rest := by
  by_cases hle : p.length ≤ num.text.length
  · refine Or.inl ⟨hle, fun b hb => ?_⟩
    have hpre : p <+: num.text :=
      List.prefix_of_prefix_length_le hp (List.prefix_append _ _) hle
    exact num.digits b (hpre.subset hb)
  · have hfront : num.text ++ [0x2C] <+: p := by
      refine List.prefix_of_prefix_length_le ?_ hp ?_
      · rw [List.append_cons num.text 0x2C rest]
        exact List.prefix_append _ _
      · rw [List.length_append, List.length_singleton]
        omega
    obtain ⟨p', rfl⟩ := hfront
    rw [List.append_cons num.text 0x2C rest, List.prefix_append_right_inj] at hp
    exact Or.inr ⟨p', by simp, hp⟩

theorem rxNumbers_cut {nums : List Numeral} {p : Bytes} (hp : p <+: numerals nums)
    (hcut : p.length < (numerals nums).length) (front : Bytes) :
    rxNumbers (front ++ p) nums.length front.length = none := by
  induction nums generalizing p front with
  | nil => exact absurd hcut (Nat.not_lt_zero _)
  | cons num nums ih =>
      rw [numerals_cons] at hp hcut
      rw [List.length_cons, rxNumbers]
      rcases prefix_numeral hp with ⟨-, hdigits⟩ | ⟨p', rfl, hp'⟩
      · rw [rxNumber_end false hdigits]
      · have hcut' : p'.length < (numerals nums).length := by
          simp only [List.length_append, List.length_cons] at hcut
          omega
        have hrest := ih hp' hcut' (front ++ (num.text ++ [0x2C]))
        have hbuf : front ++ (num.text ++ [0x2C]) ++ p' =
            front ++ (num.text ++ 0x2C :: p') := by simp
        rw [hbuf] at hrest
        rw [num.rxNumber false front p']
        dsimp only
        rw [hrest]

end Reading

/-! ## Data of a Bluetooth peer -/

/-- A message with data of a Bluetooth peer, behind the name of its command. -/
structure BleFrame (eventId : BleDataId) where
  conn : Numeral
  indices : List Numeral
  size : Numeral
  data : Bytes
  indices_length : indices.length = eventId.indices
  size_value : size.value = data.length
  nonempty : data ≠ []

namespace BleFrame

variable {eventId : BleDataId} (f : BleFrame eventId)

/-- The numbers in front of the length. -/
def head : Bytes := numerals (f.conn :: f.indices)

def bytes : Bytes := f.head ++ (f.size.text ++ 0x2C :: f.data)

/-- What the application is told. -/
def param : BleDataParam where
  eventId := eventId
  connHandle := f.conn.value % 2 ^ 8
  indices := f.indices.map fun num => num.value % 2 ^ eventId.indexWidth
  data := f.data

end BleFrame

section Ble

variable {eventId : BleDataId} {size : ℕ} {front name : Bytes}

/-- A length that the end of the buffer cuts off is taken for an empty message. -/
theorem bleDataCopy_digits {digits : Bytes} (hdigits : ∀ b ∈ digits, isDigit b = true)
    (conn : ℤ) (indices : List ℤ) :
    bleDataCopy size eventId conn indices (front ++ digits) front.length =
      .ok ((front ++ digits).length, none) := by
  have hstop := rxStrtol_end hdigits front [] rfl
  have hbyte := rxByte_end (front ++ digits) [] rfl
  rw [List.append_nil] at hstop hbyte
  rw [bleDataCopy]
  dsimp only
  rw [hstop, hbyte, if_pos (Or.inl (by decide))]

theorem bleDataCopy_counted (f : BleFrame eventId) (hsize : f.data.length ≤ size)
    (hfit : front.length + f.size.text.length + 1 + f.data.length < 2 ^ 16)
    (conn : ℤ) (indices : List ℤ) (received : Bytes) :
    bleDataCopy size eventId conn indices (front ++ (f.size.text ++ 0x2C :: received))
        front.length =
      if f.data.length ≤ received.length then
        .ok (((front ++ (f.size.text ++ 0x2C :: f.data)).length : ℤ), some
          { eventId := eventId
            connHandle := (conn % 2 ^ 8).toNat
            indices := indices.map fun i => (i % 2 ^ eventId.indexWidth).toNat
            data := received.take f.data.length })
      else .ok (-EAGAIN, none) := by
  have hpos : 0 < f.data.length := List.length_pos_iff.mpr f.nonempty
  have hcomma : rxByte (front ++ (f.size.text ++ 0x2C :: received))
      (front.length + f.size.text.length) = 0x2C := by
    rw [← List.append_assoc, ← List.length_append]
    exact rxByte_append _ _ _
  have hlen : ((f.size.value : ℤ) % 2 ^ 32).toNat = f.data.length := by
    have := f.size.small
    have := f.size_value
    unfold Numeral.value at this
    unfold Numeral.value
    omega
  have hbuf : front ++ (f.size.text ++ 0x2C :: received) =
      front ++ (f.size.text ++ [0x2C]) ++ received := by simp
  have hstart : front.length + f.size.text.length + 1 =
      (front ++ (f.size.text ++ [0x2C])).length := by simp [Nat.add_assoc]
  have htotal : (front ++ (f.size.text ++ 0x2C :: f.data)).length =
      front.length + f.size.text.length + 1 + f.data.length := by
    simp only [List.length_append, List.length_cons]
    omega
  have hcomplete : front.length + f.size.text.length + 1 + f.data.length ≤
      (front ++ (f.size.text ++ 0x2C :: received)).length ↔
      f.data.length ≤ received.length := by
    simp only [List.length_append, List.length_cons]
    omega
  have hgo : ¬ ((0x2C : UInt8) ≠ 0x2C ∨ f.data.length = 0) :=
    not_or.mpr ⟨not_not.mpr rfl, Nat.pos_iff_ne_zero.mp hpos⟩
  rw [bleDataCopy, f.size.rxStrtol front (by decide) (by decide)]
  dsimp only
  rw [hcomma, hlen, if_neg hgo, if_neg (Nat.not_lt.mpr hsize), Nat.mod_eq_of_lt hfit]
  simp only [hcomplete]
  by_cases hall : f.data.length ≤ received.length
  · have hcopy : copyOut (front ++ (f.size.text ++ 0x2C :: received))
        (front.length + f.size.text.length + 1) f.data.length =
        .ok (received.take f.data.length) := by
      rw [copyOut_of_le _ _ _ (hcomplete.mpr hall), hbuf, hstart, List.drop_left]
    rw [if_pos hall, if_pos hall, hcopy, htotal]
    rfl
  · rw [if_neg hall, if_neg hall]

/-- The numbers in front are read. -/
theorem bleDataEvent_head (f : BleFrame eventId) (rest : Bytes)
    (hroom : (name ++ (f.head ++ rest)).length < rxBufSize) :
    bleDataEvent (some size) eventId (name ++ (f.head ++ rest)) name.length =
      bleDataCopy size eventId f.conn.value (f.indices.map fun num => (num.value : ℤ))
        (name ++ f.head ++ rest) (name ++ f.head).length := by
  have hpos : 0 < f.conn.text.length := List.length_pos_iff.mpr f.conn.nonempty
  have hne : ¬ (name ++ (f.head ++ rest)).length ≤ name.length := by
    rw [BleFrame.head, numerals_cons]
    simp only [List.length_append, List.length_cons]
    omega
  have hconn := f.conn.rxNumber true name (numerals f.indices ++ rest)
  have hindices := rxNumbers_numerals f.indices (name ++ (f.conn.text ++ [0x2C])) rest
  have hbuf : name ++ (f.conn.text ++ 0x2C :: (numerals f.indices ++ rest)) =
      name ++ (f.head ++ rest) := by simp [BleFrame.head, numerals_cons]
  have hbuf' : name ++ (f.conn.text ++ [0x2C]) ++ (numerals f.indices ++ rest) =
      name ++ (f.head ++ rest) := by simp [BleFrame.head, numerals_cons]
  have hhead : (name ++ (f.conn.text ++ [0x2C]) ++ numerals f.indices).length =
      (name ++ f.head).length := by simp [BleFrame.head, numerals_cons]
  rw [hbuf] at hconn
  rw [hbuf', hhead, f.indices_length] at hindices
  rw [bleDataEvent, if_neg hne, terminateRxBuf, if_pos hroom, ok_bind, hconn]
  dsimp only
  rw [hindices]
  dsimp only
  rw [List.append_assoc]

/-- A cut in front of the length is an error. -/
theorem bleDataEvent_cut (f : BleFrame eventId) {p : Bytes} (hp : p <+: f.head)
    (hcut : p.length < f.head.length) (hroom : (name ++ p).length < rxBufSize) :
    bleDataEvent (some size) eventId (name ++ p) name.length = .ok (-EINVAL, none) := by
  by_cases hnil : p = []
  · rw [hnil, List.append_nil, bleDataEvent, if_pos (Nat.le_refl _)]
  · have hpos : 0 < p.length := List.length_pos_iff.mpr hnil
    have hne : ¬ (name ++ p).length ≤ name.length := by
      rw [List.length_append]
      omega
    rw [bleDataEvent, if_neg hne, terminateRxBuf, if_pos hroom, ok_bind]
    rw [BleFrame.head, numerals_cons] at hp hcut
    rcases prefix_numeral hp with ⟨-, hdigits⟩ | ⟨p', rfl, hp'⟩
    · rw [rxNumber_end true hdigits]
      rfl
    · have hcut' : p'.length < (numerals f.indices).length := by
        simp only [List.length_append, List.length_cons] at hcut
        omega
      have hindices := rxNumbers_cut hp' hcut' (name ++ (f.conn.text ++ [0x2C]))
      have hbuf : name ++ (f.conn.text ++ [0x2C]) ++ p' =
          name ++ (f.conn.text ++ 0x2C :: p') := by simp
      rw [hbuf, f.indices_length] at hindices
      rw [f.conn.rxNumber true name p']
      dsimp only
      rw [hindices]
      rfl

theorem toNat_natCast_emod (n w : ℕ) : ((n : ℤ) % 2 ^ w).toNat = n % 2 ^ w := by
  have hcast : ((n : ℤ) % 2 ^ w) = ((n % 2 ^ w : ℕ) : ℤ) := by push_cast; rfl
  rw [hcast, Int.toNat_natCast]

/-- What `W61_Ble_Data_Event` does with the first `k` bytes of a message and what follows:
it waits only for a message that is cut in its data, and tells the application of every
message that is complete; a message that is cut earlier is refused or lost. -/
theorem bleDataEvent_received (f : BleFrame eventId) (hsize : f.data.length ≤ size)
    (hfit : name.length + f.bytes.length < 2 ^ 16) (more : Bytes) {k : ℕ}
    (hk : k ≤ (f.bytes ++ more).length) (hroom : name.length + k < rxBufSize) :
    bleDataEvent (some size) eventId (name ++ (f.bytes ++ more).take k) name.length =
      .ok (if k < f.head.length then (-EINVAL, none)
        else if k ≤ f.head.length + f.size.text.length then
          (((name.length + k : ℕ) : ℤ), none)
        else if k < f.bytes.length then (-EAGAIN, none)
        else (((name.length + f.bytes.length : ℕ) : ℤ), some f.param)) := by
  have hlen : f.bytes.length =
      f.head.length + (f.size.text.length + (f.data.length + 1)) := by
    simp only [BleFrame.bytes, List.length_append, List.length_cons]
  have hbytes : f.bytes ++ more =
      f.head ++ (f.size.text ++ 0x2C :: (f.data ++ more)) := by
    simp [BleFrame.bytes]
  have htake : (name ++ (f.bytes ++ more).take k).length < rxBufSize := by
    rw [List.length_append, List.length_take_of_le hk]
    exact hroom
  by_cases hhead : k < f.head.length
  · have hp : (f.bytes ++ more).take k <+: f.head := by
      refine List.prefix_of_prefix_length_le (List.take_prefix _ _) ?_ ?_
      · rw [hbytes]
        exact List.prefix_append _ _
      · rw [List.length_take_of_le hk]
        exact hhead.le
    rw [if_pos hhead]
    refine bleDataEvent_cut f hp ?_ htake
    rw [List.length_take_of_le hk]
    exact hhead
  · obtain ⟨j, rfl⟩ := Nat.exists_eq_add_of_le (Nat.not_lt.mp hhead)
    have hsplit : (f.bytes ++ more).take (f.head.length + j) =
        f.head ++ (f.size.text ++ 0x2C :: (f.data ++ more)).take j := by
      rw [hbytes, List.take_length_add_append]
    rw [hsplit] at htake ⊢
    rw [if_neg hhead, bleDataEvent_head f _ htake]
    by_cases hcount : j ≤ f.size.text.length
    · have hdigits : ∀ b ∈ f.size.text.take j, isDigit b = true :=
        fun b hb => f.size.digits b (List.mem_of_mem_take hb)
      rw [if_pos (by omega), List.take_append_of_le_length hcount,
        bleDataCopy_digits hdigits]
      simp only [List.length_append, List.length_take_of_le hcount, Nat.add_assoc]
    · obtain ⟨i, rfl⟩ := Nat.exists_eq_add_of_lt (Nat.not_le.mp hcount)
      have hreceived : (f.size.text ++ 0x2C :: (f.data ++ more)).take
          (f.size.text.length + i + 1) =
          f.size.text ++ 0x2C :: (f.data ++ more).take i := by
        rw [Nat.add_assoc, List.take_length_add_append, List.take_succ_cons]
      have hi : i ≤ (f.data ++ more).length := by
        rw [hbytes] at hk
        simp only [List.length_append, List.length_cons] at hk ⊢
        omega
      have hfit' : (name ++ f.head).length + f.size.text.length + 1 + f.data.length <
          2 ^ 16 := by
        rw [List.length_append]
        omega
      rw [if_neg (by omega), hreceived,
        bleDataCopy_counted f hsize hfit', List.length_take_of_le hi]
      by_cases hall : f.data.length ≤ i
      · rw [if_pos hall, if_neg (by omega), List.take_take, min_eq_left hall, List.take_left]
        have htotal : (name ++ f.head ++ (f.size.text ++ 0x2C :: f.data)).length =
            name.length + f.bytes.length := by
          rw [BleFrame.bytes, List.append_assoc, List.length_append]
        rw [htotal, toNat_natCast_emod, List.map_map]
        simp only [Function.comp_def, toNat_natCast_emod]
        rfl
      · rw [if_neg hall, if_pos (by omega)]

/-- A write of three bytes, of which one is missing. -/
example : bleDataEvent (some 20) .write
    (ascii "+BLE:GATTWRITE:" ++ (ascii "0,1,2,3,abcde").take 10) 15 = .ok (-EAGAIN, none) := by
  decide +kernel

end Ble

/-! ## Counted data -/

/-- A message with counted data, behind the name of its command. -/
structure CountedFrame where
  size : Numeral
  data : Bytes
  size_value : size.value = data.length

def CountedFrame.bytes (f : CountedFrame) : Bytes := f.size.text ++ 0x2C :: f.data

section Counted

/-- What the readers of counted data do with the first `k` bytes of a message and what
follows.  A cut in front of the comma is an error, a cut in the data is waited for, and
data that do not fit the object overrun it. -/
theorem rxCounted_received (name : Bytes) (size : ℕ) (f : CountedFrame)
    (hsmall : f.data.length < 2 ^ 16) (more : Bytes) {k : ℕ}
    (hk : k ≤ (f.bytes ++ more).length) (hroom : name.length + k < rxBufSize) :
    rxCounted size (name ++ (f.bytes ++ more).take k) name.length =
      if k ≤ f.size.text.length then .ok (-EINVAL, none)
      else if k < f.bytes.length then .ok (-EAGAIN, none)
      else if f.data.length ≤ size then
        .ok (((name.length + f.bytes.length : ℕ) : ℤ), some f.data)
      else .error .outOfBounds := by
  have hlen : f.bytes.length = f.size.text.length + (f.data.length + 1) := by
    simp only [CountedFrame.bytes, List.length_append, List.length_cons]
  have hbytes : f.bytes ++ more = f.size.text ++ 0x2C :: (f.data ++ more) := by
    simp [CountedFrame.bytes]
  have htake : (name ++ (f.bytes ++ more).take k).length < rxBufSize := by
    rw [List.length_append, List.length_take_of_le hk]
    exact hroom
  rw [rxCounted, terminateRxBuf, if_pos htake, ok_bind, hbytes]
  by_cases hcount : k ≤ f.size.text.length
  · have hdigits : ∀ b ∈ f.size.text.take k, isDigit b = true :=
      fun b hb => f.size.digits b (List.mem_of_mem_take hb)
    rw [if_pos hcount, List.take_append_of_le_length hcount, rxNumber_end true hdigits]
    rfl
  · obtain ⟨i, rfl⟩ := Nat.exists_eq_add_of_lt (Nat.not_le.mp hcount)
    have hi : i ≤ (f.data ++ more).length := by
      rw [hbytes] at hk
      simp only [List.length_append, List.length_cons] at hk ⊢
      omega
    have hreceived : (f.size.text ++ 0x2C :: (f.data ++ more)).take
        (f.size.text.length + i + 1) =
        f.size.text ++ 0x2C :: (f.data ++ more).take i := by
      rw [Nat.add_assoc, List.take_length_add_append, List.take_succ_cons]
    have hvalue : ((f.size.value : ℤ) % 2 ^ 16).toNat = f.data.length := by
      rw [toNat_natCast_emod, f.size_value, Nat.mod_eq_of_lt hsmall]
    have hbuf : name ++ (f.size.text ++ 0x2C :: (f.data ++ more).take i) =
        name ++ (f.size.text ++ [0x2C]) ++ (f.data ++ more).take i := by simp
    have hcomplete : (name ++ (f.size.text ++ [0x2C])).length + f.data.length ≤
        (name ++ (f.size.text ++ [0x2C]) ++ (f.data ++ more).take i).length ↔
        f.data.length ≤ i := by
      rw [@List.length_append _ _ (List.take i _), List.length_take_of_le hi]
      omega
    rw [if_neg hcount, hreceived, f.size.rxNumber true name]
    dsimp only
    rw [hvalue, hbuf]
    simp only [hcomplete]
    by_cases hall : f.data.length ≤ i
    · have hcopy : copyOut (name ++ (f.size.text ++ [0x2C]) ++ (f.data ++ more).take i)
          (name ++ (f.size.text ++ [0x2C])).length f.data.length = .ok f.data := by
        rw [copyOut_of_le _ _ _ (hcomplete.mpr hall), List.drop_left, List.take_take,
          min_eq_left hall, List.take_left]
      have htotal : (name ++ (f.size.text ++ [0x2C])).length + f.data.length =
          name.length + f.bytes.length := by
        rw [hlen]
        simp only [List.length_append, List.length_singleton]
        omega
      rw [if_pos hall, if_neg (by omega), hcopy, ok_bind, ← Nat.cast_add, htotal]
      rfl
    · rw [if_neg hall, if_pos (by omega)]
      rfl

/-- The answer to a read of twelve bytes, with room for eight. -/
example : rxCounted 8 (ascii "+CIPRECVDATA:" ++ (ascii "12,twelve bytes\r\n").take 17) 13 =
    .error .outOfBounds := by
  decide +kernel

end Counted

/-! ## Messages of a subscription -/

/-- A message of a subscription, behind the name of its command: the link id and a comma,
the lengths, the topic in its quotes and the message. -/
structure MqttFrame where
  link : Bytes
  topicSize : Numeral
  messageSize : Numeral
  topic : Bytes
  message : Bytes
  link_length : link.length = 2
  topic_length : topic.length = topicSize.value + 2
  message_length : message.length = messageSize.value

namespace MqttFrame

variable (f : MqttFrame)

def sizes : Bytes := numerals [f.topicSize, f.messageSize]

def bytes : Bytes := f.link ++ (f.sizes ++ (f.topic ++ 0x2C :: f.message))

end MqttFrame

section Mqtt

variable {size : ℕ} {name : Bytes}

/-- The lengths are read. -/
theorem mqttDataEvent_sizes (f : MqttFrame) (hsize : f.topic.length + f.message.length + 1 ≤ size)
    (hfit : name.length + f.bytes.length < 2 ^ 16) (stale received : Bytes)
    (hroom : (name ++ f.link ++ (f.sizes ++ received)).length < rxBufSize) :
    mqttDataEvent (some size) stale (name ++ f.link ++ (f.sizes ++ received)) name.length =
      if f.topic.length + f.message.length + 1 ≤ received.length then
        .ok (((name.length + f.bytes.length : ℕ) : ℤ), some
          ⟨received.take f.topic.length,
            (received.drop (f.topic.length + 1)).take f.message.length⟩)
      else .ok (-EAGAIN, none) := by
  have harea : name ++ f.link ++ (f.sizes ++ received) ++ 0 :: stale =
      name ++ f.link ++ (f.topicSize.text ++ 0x2C ::
        (f.messageSize.text ++ 0x2C :: (received ++ 0 :: stale))) := by
    simp [MqttFrame.sizes, numerals_cons]
  have harea' : name ++ f.link ++ (f.topicSize.text ++ 0x2C ::
        (f.messageSize.text ++ 0x2C :: (received ++ 0 :: stale))) =
      name ++ f.link ++ (f.topicSize.text ++ [0x2C]) ++
        (f.messageSize.text ++ 0x2C :: (received ++ 0 :: stale)) := by simp
  have hdrop : name ++ f.link ++ (f.sizes ++ received) ++ 0 :: stale =
      (name ++ f.link ++ f.sizes) ++ (received ++ 0 :: stale) := by simp
  have hpos : name.length + 2 = (name ++ f.link).length := by
    rw [List.length_append, f.link_length]
  have hlen : f.bytes.length =
      2 + (f.sizes.length + (f.topic.length + (f.message.length + 1))) := by
    simp only [MqttFrame.bytes, List.length_append, List.length_cons, f.link_length]
  have hsizes : (name ++ f.link ++ (f.topicSize.text ++ [0x2C]) ++
      (f.messageSize.text ++ [0x2C])).length = (name ++ f.link ++ f.sizes).length := by
    simp [MqttFrame.sizes, numerals_cons, Nat.add_assoc]
  have hheader : (name ++ f.link ++ f.sizes).length = name.length + 2 + f.sizes.length := by
    rw [List.length_append, List.length_append, f.link_length]
  have htopic : (f.topicSize.value : ℤ) + 2 = f.topic.length := by
    rw [f.topic_length]
    push_cast
    rfl
  have hmessage : (f.messageSize.value : ℤ) = f.message.length := by
    rw [f.message_length]
  rw [mqttDataEvent, terminateRxBuf, if_pos hroom, ok_bind]
  dsimp only
  rw [hpos, harea, f.topicSize.rxNumber true (name ++ f.link)]
  dsimp only
  rw [harea', f.messageSize.rxNumber false (name ++ f.link ++ (f.topicSize.text ++ [0x2C]))]
  dsimp only
  rw [hsizes, ← harea', ← harea, hdrop, htopic, hmessage]
  have htopicLen : (f.topic.length : ℤ) % 2 ^ 32 = f.topic.length := by omega
  have hmessageLen : (f.message.length : ℤ) % 2 ^ 32 = f.message.length := by omega
  have hspace : ¬ (size : ℤ) < ((f.topic.length : ℤ) + f.message.length + 1) % 2 ^ 32 := by
    omega
  have hrxDataLen : ((((name ++ f.link ++ f.sizes).length : ℤ) + f.topic.length +
      f.message.length + 1) % 2 ^ 16).toNat = name.length + f.bytes.length := by
    omega
  have hcomplete : name.length + f.bytes.length ≤
      (name ++ f.link ++ (f.sizes ++ received)).length ↔
      f.topic.length + f.message.length + 1 ≤ received.length := by
    rw [List.length_append, List.length_append, List.length_append, f.link_length]
    omega
  rw [htopicLen, hmessageLen, Int.toNat_natCast, Int.toNat_natCast, if_neg hspace, hrxDataLen]
  simp only [hcomplete]
  by_cases hall : f.topic.length + f.message.length + 1 ≤ received.length
  · have hcopyTopic : copyOut (name ++ f.link ++ f.sizes ++ (received ++ 0 :: stale))
        (name ++ f.link ++ f.sizes).length f.topic.length =
        .ok (received.take f.topic.length) := by
      exact copyOut_middle _ received (0 :: stale) (i := 0) (by omega)
    have hcopyMessage : copyOut (name ++ f.link ++ f.sizes ++ (received ++ 0 :: stale))
        ((name ++ f.link ++ f.sizes).length + f.topic.length + 1) f.message.length =
        .ok ((received.drop (f.topic.length + 1)).take f.message.length) := by
      rw [Nat.add_assoc]
      exact copyOut_middle _ received (0 :: stale) (by omega)
    rw [if_pos hall, if_pos hall, hcopyTopic, ok_bind, hcopyMessage]
    rfl
  · rw [if_neg hall, if_neg hall]
    rfl

theorem mqttDataEvent_cut (f : MqttFrame) {p : Bytes} (hp : p <+: f.sizes)
    (hcut : p.length < f.sizes.length) (hroom : (name ++ f.link ++ p).length < rxBufSize)
    (stale : Bytes) :
    mqttDataEvent (some size) stale (name ++ f.link ++ p) name.length =
      .ok (-EINVAL, none) := by
  have hpos : name.length + 2 = (name ++ f.link).length := by
    rw [List.length_append, f.link_length]
  have hnul : stringOf (0 :: stale) = [] := rfl
  rw [mqttDataEvent, terminateRxBuf, if_pos hroom, ok_bind]
  dsimp only
  rw [hpos, List.append_assoc (name ++ f.link)]
  rw [MqttFrame.sizes, numerals_cons] at hp hcut
  rcases prefix_numeral hp with ⟨-, hdigits⟩ | ⟨p', rfl, hp'⟩
  · rw [rxNumber_end_tail true hdigits _ _ hnul]
    rfl
  · rw [numerals_cons] at hp' hcut
    rcases prefix_numeral hp' with ⟨-, hdigits⟩ | ⟨p'', rfl, hp''⟩
    · have harea : name ++ f.link ++ (f.topicSize.text ++ [0x2C]) ++ (p' ++ 0 :: stale) =
          name ++ f.link ++ (f.topicSize.text ++ 0x2C :: (p' ++ 0 :: stale)) := by simp
      have hsecond := rxNumber_end_tail false hdigits
        (name ++ f.link ++ (f.topicSize.text ++ [0x2C])) _ hnul
      rw [harea] at hsecond
      rw [List.append_assoc f.topicSize.text, List.cons_append,
        f.topicSize.rxNumber true (name ++ f.link)]
      dsimp only
      rw [hsecond]
      rfl
    · rw [numerals_nil, List.prefix_nil] at hp''
      rw [hp'', numerals_nil] at hcut
      exact absurd hcut (Nat.lt_irrefl _)

/-- What `W61_MQTT_Data_Event` does with the first `k` bytes of a message and what follows,
when the link id and its comma are there: a cut in front of the topic is an error, a cut
behind is waited for, and what lies in the buffer behind the NUL has no influence. -/
theorem mqttDataEvent_received (name : Bytes) (f : MqttFrame)
    (hsize : f.topic.length + f.message.length + 1 ≤ size)
    (hfit : name.length + f.bytes.length < 2 ^ 16) (stale more : Bytes) {k : ℕ} (hlink : 2 ≤ k)
    (hk : k ≤ (f.bytes ++ more).length) (hroom : name.length + k < rxBufSize) :
    mqttDataEvent (some size) stale (name ++ (f.bytes ++ more).take k) name.length =
      .ok (if k < 2 + f.sizes.length then (-EINVAL, none)
        else if k < f.bytes.length then (-EAGAIN, none)
        else (((name.length + f.bytes.length : ℕ) : ℤ), some ⟨f.topic, f.message⟩)) := by
  have hlen : f.bytes.length =
      2 + (f.sizes.length + (f.topic.length + (f.message.length + 1))) := by
    simp only [MqttFrame.bytes, List.length_append, List.length_cons, f.link_length]
  have hbytes : f.bytes ++ more =
      f.link ++ (f.sizes ++ (f.topic ++ 0x2C :: (f.message ++ more))) := by
    simp [MqttFrame.bytes]
  obtain ⟨j, rfl⟩ := Nat.exists_eq_add_of_le hlink
  have htake : (f.bytes ++ more).take (2 + j) =
      f.link ++ (f.sizes ++ (f.topic ++ 0x2C :: (f.message ++ more))).take j := by
    rw [hbytes, ← f.link_length, List.take_length_add_append]
  have hj : j ≤ (f.sizes ++ (f.topic ++ 0x2C :: (f.message ++ more))).length := by
    rw [hbytes, List.length_append, f.link_length] at hk
    omega
  rw [htake, ← List.append_assoc]
  by_cases hcut : j < f.sizes.length
  · have hp : (f.sizes ++ (f.topic ++ 0x2C :: (f.message ++ more))).take j <+: f.sizes := by
      rw [List.take_append_of_le_length hcut.le]
      exact List.take_prefix _ _
    have hlength : (name ++ f.link ++ (f.sizes ++ (f.topic ++ 0x2C ::
        (f.message ++ more))).take j).length < rxBufSize := by
      rw [List.length_append, List.length_append, f.link_length, List.length_take_of_le hj]
      omega
    rw [if_pos (by omega)]
    refine mqttDataEvent_cut f hp ?_ hlength stale
    rw [List.length_take_of_le hj]
    exact hcut
  · obtain ⟨i, rfl⟩ := Nat.exists_eq_add_of_le (Nat.not_lt.mp hcut)
    have hi : i ≤ (f.topic ++ 0x2C :: (f.message ++ more)).length := by
      rw [List.length_append] at hj
      omega
    have hlength : (name ++ f.link ++
        (f.sizes ++ (f.topic ++ 0x2C :: (f.message ++ more)).take i)).length < rxBufSize := by
      rw [List.length_append, List.length_append, List.length_append, f.link_length,
        List.length_take_of_le hi]
      omega
    rw [if_neg (by omega), List.take_length_add_append, mqttDataEvent_sizes f hsize hfit stale _
      hlength, List.length_take_of_le hi]
    by_cases hall : f.topic.length + f.message.length + 1 ≤ i
    · have htopic : ((f.topic ++ 0x2C :: (f.message ++ more)).take i).take f.topic.length =
          f.topic := by
        rw [List.take_take, min_eq_left (by omega), List.take_left]
      have hmessage : (((f.topic ++ 0x2C :: (f.message ++ more)).take i).drop
          (f.topic.length + 1)).take f.message.length = f.message := by
        rw [List.drop_take, List.drop_length_add_append, List.drop_succ_cons, List.drop_zero,
          List.take_take, min_eq_left (by omega), List.take_left]
      rw [if_pos hall, if_neg (by omega), htopic, hmessage]
    · rw [if_neg hall, if_pos (by omega)]

/-- A message of five bytes with what follows it. -/
example : mqttDataEvent (some 64) []
    (ascii "+MQTT:SUBRECV:" ++ (ascii "0,1,5,\"t\",hello\r\n").take 15) 14 =
      .ok (29, some ⟨ascii "\"t\"", ascii "hello"⟩) := by
  decide +kernel

end Mqtt

end RtpMulticast
