import RtpMulticast.Support.ByteBuffer

/-!
# FU-A fragments

Fragmentation units of type A carry a NAL unit in several RTP payloads.  Each
payload begins with an indicator and a header: the indicator repeats the
importance bits of the unit and has the type 28, the header repeats the type of
the unit and marks the first and the last fragment.  The first byte of the unit
is not sent.  `reassemble` is the receiver; it accepts only payloads that
belong together and are complete.
-/

namespace FuA

open ByteBuffer

def nriMask : UInt8 := 0x60
def typeMask : UInt8 := 0x1F
def startMask : UInt8 := 0x80
def endMask : UInt8 := 0x40
def fuType : UInt8 := 28

/-- Indicator of the fragments of a unit with first byte `b`. -/
def indicator (b : UInt8) : UInt8 := (b &&& nriMask) ||| fuType

/-- Header of a fragment of a unit with first byte `b`. -/
def header (b : UInt8) (first last : Bool) : UInt8 :=
  (b &&& typeMask) ||| (if first then startMask else 0) |||
    (if last then endMask else 0)

/-- The fragments with the given bodies; `first` says that the unit begins
here. -/
def fragments (b : UInt8) (first : Bool) : List Bytes → List Bytes
  | [] => []
  | body :: bodies =>
      (indicator b :: header b first bodies.isEmpty :: body) ::
        fragments b false bodies

/-! ## The receiver -/

/-- Indicator, header and body of a payload of type FU-A. -/
def readFragment : Bytes → Option (UInt8 × UInt8 × Bytes)
  | fuIndicator :: fuHeader :: body =>
      if fuIndicator &&& typeMask = fuType then
        some (fuIndicator, fuHeader, body)
      else none
  | _ => none

/-- The bodies behind the first fragment, up to the one marked as the last. -/
def readFollowing (fuIndicator nalType : UInt8) : List Bytes → Option Bytes
  | [] => none
  | fragment :: rest =>
      match readFragment fragment with
      | some (fuIndicator', fuHeader, body) =>
          if fuIndicator' ≠ fuIndicator ∨ fuHeader &&& typeMask ≠ nalType ∨
              fuHeader &&& startMask ≠ 0 then none
          else if fuHeader &&& endMask ≠ 0 then
            if rest = [] then some body else none
          else (readFollowing fuIndicator nalType rest).map (body ++ ·)
      | none => none

/-- The NAL unit of a complete sequence of fragments. -/
def reassemble : List Bytes → Option Bytes
  | [] => none
  | fragment :: rest =>
      match readFragment fragment with
      | some (fuIndicator, fuHeader, body) =>
          if fuHeader &&& startMask = 0 ∨ fuHeader &&& endMask ≠ 0 then none
          else
            (readFollowing fuIndicator (fuHeader &&& typeMask) rest).map
              fun bodies =>
                ((fuIndicator &&& nriMask) ||| (fuHeader &&& typeMask)) ::
                  (body ++ bodies)
      | none => none

/-! ## Bits of indicator and header -/

theorem indicator_type (b : UInt8) : indicator b &&& typeMask = fuType := by
  revert b
  refine forall_byte ?_
  decide

theorem header_type (b : UInt8) (first last : Bool) :
    header b first last &&& typeMask = b &&& typeMask := by
  revert b
  refine forall_byte ?_
  revert first last
  decide

theorem header_start (b : UInt8) (first last : Bool) :
    header b first last &&& startMask ≠ 0 ↔ first = true := by
  revert b
  refine forall_byte ?_
  revert first last
  decide

theorem header_end (b : UInt8) (first last : Bool) :
    header b first last &&& endMask ≠ 0 ↔ last = true := by
  revert b
  refine forall_byte ?_
  revert first last
  decide

/-- The headers in the order a sender builds them: the type alone, the start
bit set, cleared again, and the end bit set. -/
theorem header_plain (b : UInt8) : header b false false = b &&& typeMask := by
  revert b
  refine forall_byte ?_
  decide

theorem header_or_start (b : UInt8) :
    header b false false ||| startMask = header b true false := by
  revert b
  refine forall_byte ?_
  decide

theorem header_clear_start (b : UInt8) (first : Bool) :
    header b first false &&& ~~~startMask = header b false false := by
  revert b
  refine forall_byte ?_
  revert first
  decide

theorem header_or_end (b : UInt8) :
    header b false false ||| endMask = header b false true := by
  revert b
  refine forall_byte ?_
  decide

/-- The first byte of a unit whose forbidden bit is 0. -/
theorem indicator_or_type (b : UInt8) (hforbidden : b &&& startMask = 0) :
    (indicator b &&& nriMask) ||| (b &&& typeMask) = b := by
  revert b
  refine forall_byte ?_
  decide

/-! ## Round trip -/

theorem readFragment_fragment (b fuHeader : UInt8) (body : Bytes) :
    readFragment (indicator b :: fuHeader :: body) =
      some (indicator b, fuHeader, body) := by
  rw [readFragment, if_pos (indicator_type b)]

theorem readFollowing_fragments (b : UInt8) {bodies : List Bytes}
    (hbodies : bodies ≠ []) :
    readFollowing (indicator b) (b &&& typeMask) (fragments b false bodies) =
      some bodies.flatten := by
  induction bodies with
  | nil => exact absurd rfl hbodies
  | cons body bodies ih =>
      have hstart : header b false bodies.isEmpty &&& startMask = 0 := by
        by_contra hset
        have hfirst := (header_start b false bodies.isEmpty).mp hset
        cases hfirst
      simp only [fragments, readFollowing, readFragment_fragment, header_type,
        hstart, ne_eq, not_true_eq_false, or_self, if_false]
      cases bodies with
      | nil =>
          have hend := (header_end b false true).mpr rfl
          simp [hend, fragments]
      | cons next bodies =>
          have hend : header b false false &&& endMask = 0 := by
            by_contra hset
            have hlast := (header_end b false false).mp hset
            cases hlast
          have hrest := ih (List.cons_ne_nil next bodies)
          simp only [List.isEmpty_cons, hend, not_true_eq_false, if_false, hrest,
            Option.map_some, List.flatten_cons]

/-- The receiver gets back the unit from two fragments or more. -/
theorem reassemble_fragments {b : UInt8} (hforbidden : b &&& startMask = 0)
    (body : Bytes) {bodies : List Bytes} (hbodies : bodies ≠ []) :
    reassemble (fragments b true (body :: bodies)) =
      some (b :: (body ++ bodies.flatten)) := by
  have hempty : bodies.isEmpty = false :=
    Bool.eq_false_iff.mpr (mt List.isEmpty_iff.mp hbodies)
  have hstart := (header_start b true false).mpr rfl
  have hend : header b true false &&& endMask = 0 := by
    by_contra hset
    have hlast := (header_end b true false).mp hset
    cases hlast
  simp only [fragments, reassemble, readFragment_fragment, hempty, hstart, hend,
    ne_eq, not_true_eq_false, or_self, if_false, header_type,
    readFollowing_fragments b hbodies, Option.map_some,
    indicator_or_type b hforbidden]

/-- Each fragment has the header of its place. -/
theorem fragments_split {b : UInt8} {first : Bool} {bodies before after : List Bytes}
    {fragment : Bytes}
    (h : fragments b first bodies = before ++ fragment :: after) :
    ∃ body, fragment =
      indicator b :: header b (first && before.isEmpty) after.isEmpty :: body := by
  induction bodies generalizing first before with
  | nil => simp [fragments] at h
  | cons body bodies ih =>
      rw [fragments] at h
      cases before with
      | nil =>
          obtain ⟨hhead, htail⟩ := List.cons.inj h
          have hempty : bodies.isEmpty = after.isEmpty := by
            rw [← htail]
            cases bodies <;> rfl
          refine ⟨body, ?_⟩
          rw [← hhead, hempty]
          simp
      | cons head before =>
          obtain ⟨-, htail⟩ := List.cons.inj h
          obtain ⟨body', hbody⟩ := ih htail
          refine ⟨body', ?_⟩
          rw [hbody]
          simp

theorem length_fragments (b : UInt8) (first : Bool) (bodies : List Bytes) :
    (fragments b first bodies).length = bodies.length := by
  induction bodies generalizing first with
  | nil => rfl
  | cons body bodies ih => rw [fragments, List.length_cons, List.length_cons, ih]

end FuA
