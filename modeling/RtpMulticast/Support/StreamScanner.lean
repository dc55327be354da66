import Mathlib.Data.List.Basic

/-!
# Reading items off a stream

A reader looks at the bytes received so far.  It takes an item off their front, with
the events it stands for, or waits for more.  When an item, once read, stays the item
whatever follows, the events of a stream do not depend on the pieces it arrives in.
-/

namespace StreamScanner

variable {α ε : Type*}

/-- The events and the length of the item in front, or nothing yet. -/
abbrev Scanner (α ε : Type*) := List α → Option (List ε × ℕ)

/-- Items are taken until the reader waits. -/
inductive Drains (scan : Scanner α ε) : List α → List ε → List α → Prop
  | stop {b : List α} (hstop : scan b = none) : Drains scan b [] b
  | item {b rest : List α} {es es' : List ε} {n : ℕ} (hitem : scan b = some (es, n))
      (hrest : Drains scan (b.drop n) es' rest) : Drains scan b (es ++ es') rest

/-- The reader after some of the items. -/
inductive Passes (scan : Scanner α ε) : List α → List α → Prop
  | refl (b : List α) : Passes scan b b
  | item {b b' : List α} {es : List ε} {n : ℕ} (hitem : scan b = some (es, n))
      (hrest : Passes scan (b.drop n) b') : Passes scan b b'

/-- Pieces of a stream, each read to its end before the next arrives, while what is
kept and the new piece fit a buffer of `cap` places. -/
inductive Feeds (scan : Scanner α ε) (cap : ℕ) :
    List α → List (List α) → List ε → List α → Prop
  | nil (b : List α) : Feeds scan cap b [] [] b
  | cons {b c rest rest' : List α} {cs : List (List α)} {es es' : List ε}
      (hfit : b.length + c.length ≤ cap) (hdrains : Drains scan (b ++ c) es rest)
      (hfeeds : Feeds scan cap rest cs es' rest') : Feeds scan cap b (c :: cs) (es ++ es') rest'

/-- An item is inside the bytes it was read from, and stays the item when more arrive. -/
structure Stable (scan : Scanner α ε) : Prop where
  inside : ∀ {b es n}, scan b = some (es, n) → n ≤ b.length
  append : ∀ {b es n}, scan b = some (es, n) → ∀ more, scan (b ++ more) = some (es, n)

/-- Every item has a length. -/
def Progresses (scan : Scanner α ε) : Prop := ∀ {b es n}, scan b = some (es, n) → 0 < n

/-- In front of any bytes the frame stands for the events. -/
def Reads (scan : Scanner α ε) (frame : List α) (es : List ε) : Prop :=
  ∀ more es' rest, Drains scan more es' rest → Drains scan (frame ++ more) (es ++ es') rest

section Drains

variable {scan : Scanner α ε} {b rest rest' more : List α} {es es' : List ε} {n : ℕ}

theorem Drains.waits (h : Drains scan b es rest) : scan rest = none := by
  induction h with
  | stop hstop => exact hstop
  | item hitem hrest ih => exact ih

/-- What is kept is an end of what arrived. -/
theorem Drains.suffix (h : Drains scan b es rest) : rest <:+ b := by
  induction h with
  | stop hstop => exact List.suffix_refl _
  | item hitem hrest ih => exact ih.trans (List.drop_suffix _ _)

theorem Drains.unique (h : Drains scan b es rest) (h' : Drains scan b es' rest') :
    es = es' ∧ rest = rest' := by
  induction h generalizing es' rest' with
  | stop hstop =>
      cases h' with
      | stop hstop' => exact ⟨rfl, rfl⟩
      | item hitem hrest =>
          rw [hstop] at hitem
          exact absurd hitem.symm (Option.some_ne_none _)
  | item hitem hrest ih =>
      cases h' with
      | stop hstop' =>
          rw [hitem] at hstop'
          exact absurd hstop' (Option.some_ne_none _)
      | item hitem' hrest' =>
          rw [hitem] at hitem'
          obtain ⟨rfl, rfl⟩ := Prod.mk.inj (Option.some.inj hitem')
          obtain ⟨rfl, rfl⟩ := ih hrest'
          exact ⟨rfl, rfl⟩

/-- An item without length is read over and over. -/
theorem not_drains_of_zero (hzero : scan b = some (es, 0)) :
    ¬ Drains scan b es' rest := by
  intro h
  induction h with
  | stop hstop =>
      rw [hstop] at hzero
      exact absurd hzero.symm (Option.some_ne_none _)
  | item hitem hrest ih =>
      rw [hitem] at hzero
      obtain ⟨rfl, rfl⟩ := Prod.mk.inj (Option.some.inj hzero)
      rw [List.drop_zero] at ih
      exact ih hitem

theorem Passes.drains_iff {b' : List α} (h : Passes scan b b') :
    (∃ es rest, Drains scan b es rest) ↔ ∃ es rest, Drains scan b' es rest := by
  induction h with
  | refl b => exact Iff.rfl
  | item hitem hrest ih =>
      rw [← ih]
      constructor
      · rintro ⟨es, rest, h⟩
        cases h with
        | stop hstop =>
            rw [hitem] at hstop
            exact absurd hstop (Option.some_ne_none _)
        | item hitem' hrest' =>
            rw [hitem] at hitem'
            obtain ⟨rfl, rfl⟩ := Prod.mk.inj (Option.some.inj hitem')
            exact ⟨_, _, hrest'⟩
      · rintro ⟨es, rest, h⟩
        exact ⟨_, _, Drains.item hitem h⟩

/-- The reader comes to wait, unless it comes to an item without length. -/
theorem drains_iff (hinside : ∀ {b es n}, scan b = some (es, n) → n ≤ b.length)
    (b : List α) :
    (∃ es rest, Drains scan b es rest) ↔ ¬ ∃ b' es, Passes scan b b' ∧
      scan b' = some (es, 0) := by
  constructor
  · rintro hdrains ⟨b', es, hpasses, hzero⟩
    obtain ⟨es', rest, h⟩ := hpasses.drains_iff.mp hdrains
    exact not_drains_of_zero hzero h
  · intro hnone
    induction hlen : b.length using Nat.strongRecOn generalizing b with
    | ind len ih =>
        cases hscan : scan b with
        | none => exact ⟨[], b, Drains.stop hscan⟩
        | some item =>
            obtain ⟨es, n⟩ := item
            have hpos : n ≠ 0 := by
              rintro rfl
              exact hnone ⟨b, es, Passes.refl b, hscan⟩
            have hle := hinside hscan
            have hlt : (b.drop n).length < len := by
              rw [List.length_drop]
              omega
            have hrest : ¬ ∃ b' es, Passes scan (b.drop n) b' ∧ scan b' = some (es, 0) := by
              rintro ⟨b', es', hpasses, hzero⟩
              exact hnone ⟨b', es', Passes.item hscan hpasses, hzero⟩
            obtain ⟨es', rest, h⟩ := ih _ hlt _ hrest rfl
            exact ⟨_, _, Drains.item hscan h⟩

theorem exists_drains (hinside : ∀ {b es n}, scan b = some (es, n) → n ≤ b.length)
    (hprog : Progresses scan) (b : List α) : ∃ es rest, Drains scan b es rest := by
  rw [drains_iff hinside]
  rintro ⟨b', es, -, hzero⟩
  exact absurd (hprog hzero) (Nat.lt_irrefl 0)

/-- More bytes only add to what was read. -/
theorem Drains.append (hs : Stable scan) (h : Drains scan b es rest)
    (h' : Drains scan (rest ++ more) es' rest') :
    Drains scan (b ++ more) (es ++ es') rest' := by
  induction h with
  | stop hstop => exact h'
  | item hitem hrest ih =>
      have hle := hs.inside hitem
      rw [List.append_assoc]
      refine Drains.item (hs.append hitem more) ?_
      rw [List.drop_append_of_le_length hle]
      exact ih h'

end Drains

section Feeds

variable {scan : Scanner α ε} {cap : ℕ} {b rest rest' : List α} {cs cs' : List (List α)}
  {es es' : List ε}

/-- The pieces are read as the stream they are. -/
theorem Feeds.drains (hs : Stable scan) (h : Feeds scan cap b cs es rest)
    (hwaits : scan b = none) : Drains scan (b ++ cs.flatten) es rest := by
  induction h with
  | nil b =>
      rw [List.flatten_nil, List.append_nil]
      exact Drains.stop hwaits
  | cons hfit hdrains hfeeds ih =>
      rw [List.flatten_cons, ← List.append_assoc]
      exact hdrains.append hs (ih hdrains.waits)

/-- Whatever the pieces, the events are the same. -/
theorem Feeds.unique (hs : Stable scan) (hwaits : scan b = none)
    (h : Feeds scan cap b cs es rest) (h' : Feeds scan cap b cs' es' rest')
    (hsame : cs.flatten = cs'.flatten) : es = es' ∧ rest = rest' := by
  have hdrains := h.drains hs hwaits
  rw [hsame] at hdrains
  exact hdrains.unique (h'.drains hs hwaits)

/-- Pieces that always find room are read. -/
theorem exists_feeds (hs : Stable scan) (hprog : Progresses scan) (hwaits : scan b = none)
    (hroom : ∀ before c after es rest, cs = before ++ c :: after →
      Drains scan (b ++ before.flatten) es rest → rest.length + c.length ≤ cap) :
    ∃ es rest, Feeds scan cap b cs es rest := by
  induction cs generalizing b with
  | nil => exact ⟨[], b, Feeds.nil b⟩
  | cons c cs ih =>
      have hfit : b.length + c.length ≤ cap := by
        apply hroom [] c cs [] b rfl
        rw [List.flatten_nil, List.append_nil]
        exact Drains.stop hwaits
      obtain ⟨es, kept, hdrains⟩ := exists_drains hs.inside hprog (b ++ c)
      obtain ⟨es', rest, hfeeds⟩ := ih hdrains.waits fun before c' after es' rest' hcs h => by
        apply hroom (c :: before) c' after (es ++ es') rest' (congrArg (List.cons c) hcs)
        rw [List.flatten_cons, ← List.append_assoc]
        exact hdrains.append hs h
      exact ⟨es ++ es', rest, Feeds.cons hfit hdrains hfeeds⟩

end Feeds

section Reads

variable {scan : Scanner α ε} {frame frame' : List α} {es es' : List ε}

theorem Reads.nil : Reads scan [] [] := fun _ _ _ h => h

theorem Reads.append (h : Reads scan frame es) (h' : Reads scan frame' es') :
    Reads scan (frame ++ frame') (es ++ es') := by
  intro more es'' rest hmore
  rw [List.append_assoc, List.append_assoc]
  exact h _ _ _ (h' _ _ _ hmore)

theorem Reads.of_item (hs : Stable scan) (h : scan frame = some (es, frame.length)) :
    Reads scan frame es := by
  intro more es' rest hmore
  refine Drains.item (hs.append h more) ?_
  rw [List.drop_left]
  exact hmore

/-- Frames one behind the other. -/
theorem Reads.flatMap {ι : Type*} {bytes : ι → List α} {events : ι → List ε} {fs : List ι}
    (h : ∀ f ∈ fs, Reads scan (bytes f) (events f)) :
    Reads scan (fs.flatMap bytes) (fs.flatMap events) := by
  induction fs with
  | nil => exact Reads.nil
  | cons f fs ih =>
      rw [List.flatMap_cons, List.flatMap_cons]
      exact Reads.append (h f List.mem_cons_self)
        (ih fun g hg => h g (List.mem_cons_of_mem f hg))

/-- Of the beginning of a stream of frames less than a frame is kept. -/
theorem Reads.length_kept {ι : Type*} {bytes : ι → List α} {events : ι → List ε}
    {fs : List ι} {size : ℕ} (hs : Stable scan) (hprog : Progresses scan) (hsize : 0 < size)
    (h : ∀ f ∈ fs, Reads scan (bytes f) (events f) ∧ (bytes f).length ≤ size)
    {front rest : List α} {es : List ε} (hfront : front <+: fs.flatMap bytes)
    (hdrains : Drains scan front es rest) : rest.length < size := by
  induction fs generalizing front es with
  | nil =>
      rw [List.flatMap_nil, List.prefix_nil] at hfront
      have hrest := hdrains.suffix.length_le
      rw [hfront, List.length_nil] at hrest
      omega
  | cons f fs ih =>
      obtain ⟨hreads, hlen⟩ := h f List.mem_cons_self
      rw [List.flatMap_cons] at hfront
      by_cases hpart : front.length < (bytes f).length
      · exact Nat.lt_of_le_of_lt hdrains.suffix.length_le (Nat.lt_of_lt_of_le hpart hlen)
      · obtain ⟨front, rfl⟩ := List.prefix_of_prefix_length_le
          (List.prefix_append (bytes f) _) hfront (Nat.not_lt.mp hpart)
        rw [List.prefix_append_right_inj] at hfront
        obtain ⟨es', rest', hrest⟩ := exists_drains hs.inside hprog front
        obtain ⟨-, rfl⟩ := hdrains.unique (hreads _ _ _ hrest)
        exact ih (fun g hg => h g (List.mem_cons_of_mem f hg)) hfront hrest

theorem Reads.drains (h : Reads scan frame es) (hnil : scan [] = none) :
    Drains scan frame es [] := by
  have hdrains := h [] [] [] (Drains.stop hnil)
  rwa [List.append_nil, List.append_nil] at hdrains

/-- A stream of frames is read as its frames, in whatever pieces it arrives, as long as a
frame and a piece fit the buffer together. -/
theorem feeds_frames {ι : Type*} {bytes : ι → List α} {events : ι → List ε} {fs : List ι}
    {cs : List (List α)} {size piece cap : ℕ} (hs : Stable scan) (hprog : Progresses scan)
    (hnil : scan [] = none) (hsize : 0 < size)
    (h : ∀ f ∈ fs, Reads scan (bytes f) (events f) ∧ (bytes f).length ≤ size)
    (hflatten : cs.flatten = fs.flatMap bytes) (hpiece : ∀ c ∈ cs, c.length ≤ piece)
    (hcap : size + piece ≤ cap + 1) :
    Feeds scan cap [] cs (fs.flatMap events) [] := by
  have hroom (before : List (List α)) (c : List α) (after : List (List α)) (es : List ε)
      (rest : List α) (hcs : cs = before ++ c :: after)
      (hdrains : Drains scan ([] ++ before.flatten) es rest) :
      rest.length + c.length ≤ cap := by
    have hmem : c ∈ cs := hcs ▸ List.mem_append_right before List.mem_cons_self
    have hc := hpiece c hmem
    have hfront : before.flatten <+: fs.flatMap bytes := by
      rw [← hflatten, hcs, List.flatten_append]
      exact List.prefix_append _ _
    have hkept := Reads.length_kept hs hprog hsize h hfront hdrains
    omega
  obtain ⟨es, rest, hfeeds⟩ := exists_feeds hs hprog hnil hroom
  have hdrains := hfeeds.drains hs hnil
  rw [List.nil_append, hflatten] at hdrains
  have hreads : ∀ f ∈ fs, Reads scan (bytes f) (events f) := fun f hf => (h f hf).1
  have hframes := (Reads.flatMap hreads).drains hnil
  obtain ⟨rfl, rfl⟩ := hdrains.unique hframes
  exact hfeeds

end Reads

end StreamScanner
