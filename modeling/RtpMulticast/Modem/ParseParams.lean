import RtpMulticast.Modem.CmdHandler
import RtpMulticast.Support.QuotedFields

/-!
# The parameters of a line

`parse_params` works on the line in place: it puts a NUL at every delimiter and keeps
the places where the parameters begin.  It never leaves the buffer nor the array of
places, and the strings it hands out are the fields of the line.
-/

namespace RtpMulticast

open ByteBuffer CStrings QuotedFields

/-- The quote and the delimiters of a command. -/
def ModemCmd.marks (cmd : ModemCmd) : Marks UInt8 where
  quote := 0x22
  delim := cmd.delim

/-- The parameters that a text behind the name of a command has. -/
def ModemCmd.params (cmd : ModemCmd) (argvLen : ℕ) (text : Bytes) : List Bytes :=
  fields cmd.marks (min cmd.argCountMax argvLen) text

/-- Strings one behind the other, each with its NUL. -/
def blocks (fs : List Bytes) : Bytes := fs.flatMap fun f => f ++ [0]

/-- The places of such strings from `base` on. -/
def offsets : ℕ → List Bytes → List ℕ
  | _, [] => []
  | base, f :: fs => base :: offsets (base + (f.length + 1)) fs

section Blocks

variable {front : Bytes} {fs : List Bytes}

@[simp] theorem blocks_nil : blocks [] = [] := rfl

theorem blocks_cons (f : Bytes) (fs : List Bytes) :
    blocks (f :: fs) = f ++ 0 :: blocks fs := by
  rw [blocks, List.flatMap_cons, List.append_assoc]
  rfl

theorem length_blocks (fs : List Bytes) : (blocks fs).length = span fs := by
  induction fs with
  | nil => rfl
  | cons f fs ih =>
      rw [blocks_cons, List.length_append, List.length_cons, ih, span]
      omega

@[simp] theorem length_offsets (base : ℕ) (fs : List Bytes) :
    (offsets base fs).length = fs.length := by
  induction fs generalizing base with
  | nil => rfl
  | cons f fs ih => rw [offsets, List.length_cons, List.length_cons, ih]

theorem offsets_append (base : ℕ) (fs gs : List Bytes) :
    offsets base (fs ++ gs) = offsets base fs ++ offsets (base + span fs) gs := by
  induction fs generalizing base with
  | nil => rfl
  | cons f fs ih =>
      have hspan : base + span (f :: fs) = base + (f.length + 1) + span fs := by
        rw [span]
        omega
      rw [List.cons_append, offsets, offsets, ih, hspan, List.cons_append]

/-- The strings at the places of `blocks`, whatever lies around them. -/
theorem argvStrings_offsets (front : Bytes) (fs : List Bytes) (rest : Bytes) :
    argvStrings (front ++ (blocks fs ++ rest)) (offsets front.length fs) =
      fs.map stringOf := by
  induction fs generalizing front with
  | nil => rfl
  | cons f fs ih =>
      have hfirst : stringOf (f ++ 0 :: (blocks fs ++ rest)) = stringOf f :=
        stringOf_append_nul f _
      have hrest := ih (front ++ (f ++ [0]))
      have hlen : (front ++ (f ++ [0])).length = front.length + (f.length + 1) := by
        simp only [List.length_append, List.length_singleton]
      have hbuf : front ++ (f ++ [0]) ++ (blocks fs ++ rest) =
          front ++ (blocks (f :: fs) ++ rest) := by
        simp only [blocks_cons, List.append_assoc, List.cons_append, List.nil_append]
      rw [hlen, hbuf] at hrest
      rw [offsets, argvStrings, List.map_cons, List.map_cons, ← argvStrings, hrest,
        List.drop_left, blocks_cons, List.append_assoc, List.cons_append, hfirst]

end Blocks

/-! ## The loop -/

section Loop

variable {cmd : ModemCmd} {argvLen k : ℕ} {front cur text tail : Bytes} {p : ParamScan}

/-- Where the loop stands: `cur` is read since the last delimiter, `text` is not read,
and `k` more parameters are wanted. -/
structure ParamsAt (cmd : ModemCmd) (argvLen k : ℕ) (front cur text tail : Bytes)
    (p : ParamScan) : Prop where
  matchBuf : p.matchBuf = front ++ (cur ++ (text ++ tail))
  begin : p.begin = front.length
  stop : p.stop = front.length + cur.length
  count : p.count = p.argv.length
  wanted : p.argv.length + k = min cmd.argCountMax argvLen

/-- What the loop leaves behind: the complete fields with their NULs, the places of
them, and the open field. -/
structure ParamsDone (front tail : Bytes) (r : List Bytes × Bytes × Bytes)
    (argv : List ℕ) (p : ParamScan) : Prop where
  matchBuf : p.matchBuf = front ++ (blocks r.1 ++ (r.2.1 ++ (r.2.2 ++ tail)))
  argv : p.argv = argv ++ offsets front.length r.1
  begin : p.begin = front.length + span r.1
  stop_of_nil : r.2.1 = [] → p.stop ≤ p.begin
  stop_of_ne : r.2.1 ≠ [] → p.stop = p.begin + r.2.1.length

theorem ParamsAt.load {a : UInt8} (h : ParamsAt cmd argvLen k front cur (a :: text) tail p) :
    loadU8 p.matchBuf p.stop = .ok a := by
  have hload := loadU8_append_right (front ++ cur) (a :: text ++ tail) 0
  rw [List.length_append, List.append_assoc] at hload
  rw [h.matchBuf, h.stop]
  exact hload

/-- A byte that ends no field. -/
theorem ParamsAt.advance {a : UInt8} (quoted : Bool)
    (h : ParamsAt cmd argvLen k front cur (a :: text) tail p) :
    ParamsAt cmd argvLen k front (cur ++ [a]) text tail
      { p with quoted := quoted, stop := p.stop + 1 } where
  matchBuf := by simp [h.matchBuf]
  begin := h.begin
  stop := by simp [h.stop, Nat.add_assoc]
  count := h.count
  wanted := h.wanted

/-- A delimiter becomes the NUL of its field, and the next field begins behind it. -/
theorem ParamsAt.delim {a : UInt8}
    (h : ParamsAt cmd argvLen (k + 1) front cur (a :: text) tail p) :
    ∃ p₁, p.delimiter argvLen = .ok p₁ ∧
      p₁.quoted = p.quoted ∧ p₁.argv = p.argv ++ [front.length] ∧
      ParamsAt cmd argvLen k (front ++ (cur ++ [0])) [] text tail
        { p₁ with stop := p₁.stop + 1 } := by
  have hwanted := h.wanted
  have hstore := storeU8_append (front ++ cur) a (text ++ tail) 0
  rw [List.length_append, List.append_assoc, List.append_assoc, ← List.cons_append,
    ← h.matchBuf, ← h.stop] at hstore
  have hmark : p.mark argvLen = .ok
      { p with matchBuf := front ++ (cur ++ 0 :: (text ++ tail)),
               argv := p.argv ++ [front.length] } := by
    rw [ParamScan.mark, if_pos (by omega), hstore, ok_bind, h.begin]
    rfl
  rw [ParamScan.delimiter, hmark]
  refine ⟨_, rfl, rfl, rfl, ?_, ?_, ?_, ?_, ?_⟩
  · simp
  · simp [h.stop, Nat.add_assoc]
  · simp [h.stop, Nat.add_assoc]
  · simp [h.count]
  · rw [List.length_append, List.length_singleton]
    omega

/-- A field in front of the ones of the rest. -/
theorem ParamsDone.cons {r : List Bytes × Bytes × Bytes} {argv : List ℕ}
    (h : ParamsDone (front ++ (cur ++ [0])) tail r (argv ++ [front.length]) p) :
    ParamsDone front tail (cur :: r.1, r.2) argv p where
  matchBuf := by simp [h.matchBuf, blocks_cons]
  argv := by simp [h.argv, offsets]
  begin := by simp [h.begin, span, Nat.add_assoc]
  stop_of_nil := h.stop_of_nil
  stop_of_ne := h.stop_of_ne

/-- The loop cuts the text. -/
theorem paramLoop_cut (h : ParamsAt cmd argvLen (k + 1) front cur text tail p) :
    ∃ p', paramLoop cmd argvLen text.length p = .ok p' ∧
      ParamsDone front tail (cut cmd.marks (k + 1) p.quoted cur text) p.argv p' := by
  induction text generalizing k front cur p with
  | nil =>
      refine ⟨p, rfl, ?_, ?_, h.begin, ?_, ?_⟩
      · simp [cut, h.matchBuf]
      · simp [cut, offsets]
      · intro hnil
        rw [h.stop, h.begin, show cur = [] from hnil]
        rfl
      · intro _
        rw [h.stop, h.begin]
        rfl
  | cons a text ih =>
      have hturn : cmd.marks.turn p.quoted a =
          if a = 0x22 then !p.quoted else p.quoted := rfl
      rw [List.length_cons, paramLoop, h.load, ok_bind]
      dsimp only
      rw [← hturn]
      cases hq : cmd.marks.turn p.quoted a with
      | true =>
          rw [if_pos rfl, cut_cons_of_plain (Or.inl hq), hq]
          exact ih (h.advance true)
      | false =>
          rw [if_neg Bool.false_ne_true]
          by_cases hdelim : a ∈ cmd.delim
          · have hcut : ¬ (cmd.marks.turn p.quoted a = true ∨ a ∉ cmd.marks.delim) := by
              rw [hq, not_or, not_not]
              exact ⟨Bool.false_ne_true, hdelim⟩
            have hat : ParamsAt cmd argvLen (k + 1) front cur (a :: text) tail
                { p with quoted := false } := ⟨h.1, h.2, h.3, h.4, h.5⟩
            obtain ⟨p₁, hmark, hquoted, hargv, hnext⟩ := hat.delim
            have hcount := hnext.count
            have hwanted := hnext.wanted
            rw [if_pos hdelim, hmark, cut_cons_of_delim hcut, ok_bind]
            cases k with
            | zero =>
                have hdone : ParamsDone (front ++ (cur ++ [0])) tail ([], [], text)
                    (p.argv ++ [front.length]) p₁ :=
                  ⟨hnext.matchBuf, by simp [hargv, offsets], hnext.begin,
                    fun _ => (Nat.le_succ _).trans (hnext.stop.trans hnext.begin.symm).le,
                    fun hne => absurd rfl hne⟩
                refine ⟨p₁, ?_, ?_⟩
                · by_cases hmax : cmd.argCountMax ≤ p₁.count
                  · rw [if_pos hmax]
                    rfl
                  · rw [if_neg hmax, if_pos (by dsimp only at hcount hwanted; omega)]
                    rfl
                · cases text <;> exact hdone.cons
            | succ k =>
                dsimp only at hcount hwanted
                rw [if_neg (by omega), if_neg (by omega)]
                obtain ⟨p', hrun, hdone⟩ := ih hnext
                dsimp only at hdone
                rw [hquoted, hargv] at hdone
                exact ⟨p', hrun, hdone.cons⟩
          · rw [if_neg hdelim, cut_cons_of_plain (Or.inr hdelim), hq, ok_bind]
            have hwanted := h.wanted
            rw [if_neg (by dsimp only; have := h.count; omega),
              if_neg (by dsimp only; omega)]
            exact ih (h.advance false)

end Loop

/-! ## The strings -/

/-- How much of the text `parse_params` reports as parsed: the fields that a delimiter
ends. -/
def ModemCmd.parsed (cmd : ModemCmd) (argvLen : ℕ) (text : Bytes) : ℕ :=
  span (cut cmd.marks (min cmd.argCountMax argvLen) false [] text).1

theorem ModemCmd.parsed_le (cmd : ModemCmd) (argvLen : ℕ) (text : Bytes) :
    cmd.parsed argvLen text ≤ text.length := by
  have hlen := length_cut cmd.marks (min cmd.argCountMax argvLen) false [] text
  rw [List.length_nil, Nat.zero_add] at hlen
  rw [parsed]
  omega

/-- The open field is marked like the others. -/
theorem ParamsDone.ending {front tail : Bytes} {r : List Bytes × Bytes × Bytes}
    {argvLen : ℕ} {p : ParamScan} {b : UInt8}
    (h : ParamsDone front (b :: tail) r [] p)
    (hopen : r.2.1 ≠ [] → r.1.length < argvLen ∧ r.2.2 = []) :
    ∃ p' rest, p.ending argvLen = .ok p' ∧
      p'.begin = p.begin ∧ p'.matchBuf.length = p.matchBuf.length ∧
      p'.argv = offsets front.length (if r.2.1 = [] then r.1 else r.1 ++ [r.2.1]) ∧
      p'.matchBuf =
        front ++ (blocks (if r.2.1 = [] then r.1 else r.1 ++ [r.2.1]) ++ rest) := by
  obtain ⟨fs, last, unread⟩ := r
  have hargv := h.argv
  rw [List.nil_append] at hargv
  by_cases hlast : last = []
  · have hstop : ¬ p.begin < p.stop := Nat.not_lt.mpr (h.stop_of_nil hlast)
    refine ⟨p, unread ++ b :: tail, if_neg hstop, rfl, rfl, ?_, ?_⟩
    · rw [if_pos hlast]
      exact hargv
    · rw [if_pos hlast, h.matchBuf, hlast]
      rfl
  · obtain ⟨hroom, hread⟩ := hopen hlast
    have hstop := h.stop_of_ne hlast
    have hpos : 0 < last.length := List.length_pos_iff.mpr hlast
    have hstore := storeU8_append (front ++ (blocks fs ++ last)) b tail 0
    have hat : (front ++ (blocks fs ++ last)).length = p.stop := by
      rw [hstop, h.begin, List.length_append, List.length_append, length_blocks]
      exact (Nat.add_assoc _ _ _).symm
    have hbuf : p.matchBuf = front ++ (blocks fs ++ last) ++ b :: tail := by
      have hunread : unread = [] := hread
      simp [h.matchBuf, hunread]
    rw [hat, ← hbuf] at hstore
    have hcount : p.argv.length < argvLen := by
      rw [hargv, length_offsets]
      exact hroom
    refine ⟨{ p with matchBuf := front ++ (blocks fs ++ last) ++ 0 :: tail,
                     argv := p.argv ++ [p.begin] }, tail, ?_, rfl, ?_, ?_, ?_⟩
    · have hlt : p.begin < p.stop := hstop ▸ Nat.lt_add_of_pos_right hpos
      rw [ParamScan.ending, if_pos hlt, ParamScan.mark, if_pos hcount, hstore]
      rfl
    · rw [hbuf, List.length_append, @List.length_append _ _ (b :: tail)]
      rfl
    · rw [if_neg hlast, offsets_append, ← hargv, h.begin]
      rfl
    · rw [if_neg hlast]
      simp [blocks]

/-- On every line `parse_params` stays inside the buffer and the array, and the places
are those of the fields. -/
theorem parseParams_fields {cmd : ModemCmd} (hmax : 0 < cmd.argCountMax) (argvLen : ℕ)
    (hargv : 0 < argvLen) {text : Bytes} (hne : 0 < cmd.cmd.length + text.length)
    (b : UInt8) (tail : Bytes) :
    ∃ matchBuf argv,
      parseParams (cmd.cmd ++ (text ++ b :: tail)) (cmd.cmd.length + text.length) cmd
          argvLen =
        .ok (if (cmd.params argvLen text).length < cmd.argCountMin then -EINVAL
          else cmd.parsed argvLen text, matchBuf, argv) ∧
      argvStrings matchBuf argv = (cmd.params argvLen text).map stringOf ∧
      matchBuf.length = cmd.cmd.length + text.length + (b :: tail).length := by
  obtain ⟨k, hk⟩ := Nat.exists_eq_add_one_of_ne_zero
    (Nat.pos_iff_ne_zero.mp (lt_min hmax hargv))
  have hstart : ParamsAt cmd argvLen (k + 1) cmd.cmd [] text (b :: tail)
      ⟨cmd.cmd ++ (text ++ b :: tail), false, cmd.cmd.length, cmd.cmd.length, 0, []⟩ :=
    ⟨rfl, rfl, rfl, rfl, by rw [hk, List.length_nil, Nat.zero_add]⟩
  obtain ⟨p, hloop, hdone⟩ := paramLoop_cut hstart
  rw [← hk] at hdone
  have hopen (hlast : (cut cmd.marks (min cmd.argCountMax argvLen) false [] text).2.1 ≠ []) :
      (cut cmd.marks (min cmd.argCountMax argvLen) false [] text).1.length < argvLen ∧
        (cut cmd.marks (min cmd.argCountMax argvLen) false [] text).2.2 = [] := by
    obtain ⟨hlt, hread⟩ := cut_open (fun _ => rfl) hlast
    exact ⟨lt_of_lt_of_le hlt (min_le_right _ _), hread⟩
  obtain ⟨p', rest, hfinish, hbegin, hlen, hplaces, hbuf⟩ := hdone.ending hopen
  have hparams : cmd.params argvLen text =
      if (cut cmd.marks (min cmd.argCountMax argvLen) false [] text).2.1 = [] then
        (cut cmd.marks (min cmd.argCountMax argvLen) false [] text).1
      else (cut cmd.marks (min cmd.argCountMax argvLen) false [] text).1 ++
        [(cut cmd.marks (min cmd.argCountMax argvLen) false [] text).2.1] := rfl
  rw [← hparams] at hplaces hbuf
  have hparsed : (p'.begin : ℤ) - cmd.cmd.length = cmd.parsed argvLen text := by
    rw [hbegin, hdone.begin, ModemCmd.parsed, Nat.cast_add, add_sub_cancel_left]
  refine ⟨p'.matchBuf, p'.argv, ?_, ?_, ?_⟩
  · rw [parseParams, if_neg (by omega)]
    dsimp only
    rw [Nat.add_sub_cancel_left, hloop, ok_bind, hfinish, ok_bind, hparsed, hplaces,
      length_offsets]
    split <;> rfl
  · rw [hplaces, hbuf]
    exact argvStrings_offsets cmd.cmd _ rest
  · have hcut := length_cut cmd.marks (min cmd.argCountMax argvLen) false [] text
    rw [List.length_nil, Nat.zero_add] at hcut
    rw [hlen, hdone.matchBuf, ← hcut]
    simp only [List.length_append, length_blocks]
    omega

end RtpMulticast
