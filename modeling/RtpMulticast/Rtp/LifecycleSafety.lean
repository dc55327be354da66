import RtpMulticast.Rtp.LifecycleInvariant

/-!
# Orderly use of a sender and its sessions

In every run in which no step makes a check stale that another task still
relies on, all tasks work on live objects: the list holds exactly the sessions
that creation has linked and deletion has not yet unlinked, and the mutex is
there whenever a task is about to take or give it.  Three runs show what happens
to calls whose checks have become stale.
-/

namespace RtpMulticast

open LinkedList

namespace Lifecycle

namespace Inv

variable {s s' : Lifecycle} {L L' : List ℕ} {t x : ℕ} {pc : TaskPc}

/-! ## Steps of the calls -/

/-- A call whose checks have passed has nothing for itself yet. -/
theorem enter (h : s.Inv L) (hpc : pc.Ok s.mem L)
    (hreshapes : ∀ y, ¬ pc.Reshapes y) (hkills : ¬ pc.Kills)
    (hfree : ¬ pc.HoldsMutex) : (s.goto t pc).Inv L := by
  refine h.goto hpc ⟨?_, ?_⟩ ?_
  · intro y hy
    exact absurd hy (hreshapes y)
  · intro hk
    exact absurd hk hkills
  · intro hold
    exact absurd hold hfree

theorem call_step (h : s.Inv L) {c : LifecycleCall}
    (hstep : s.call t c = some s') : s'.Inv L := by
  unfold Lifecycle.call at hstep
  split at hstep
  · cases c with
    | create x =>
        dsimp only at hstep
        split at hstep
        · cases hstep
          exact h
        · next hid =>
            cases hstep
            rw [not_not] at hid
            refine h.enter ?_ (fun y hy => hy.2.1 rfl) id id
            constructor <;> simp [hid]
    | delete x =>
        dsimp only at hstep
        split at hstep
        · next hsender =>
            cases hstep
            refine h.enter ?_ (fun y => id) id id
            constructor <;> simp [hsender]
        · cases hstep
          exact h
    | send x =>
        dsimp only at hstep
        split at hstep
        · next hsender =>
            cases hstep
            refine h.enter ?_ (fun y => id) id id
            constructor <;> simp [hsender]
        · cases hstep
          exact h
    | cleanup =>
        dsimp only at hstep
        split at hstep
        · cases hstep
          exact h
        · next hid =>
            cases hstep
            rw [not_not] at hid
            refine h.enter ?_ (fun y => id) id id
            constructor <;> simp [hid]
  · cases hstep

/-- A call that fails its second check returns. -/
theorem leave (h : s.Inv L) : (s.goto t .idle).Inv L := by
  refine h.enter ?_ (fun y => id) id id
  constructor <;> simp

/-- The id of a session whose back pointer was seen is checked: a session that
passes is linked and still has its back pointer. -/
theorem check_id (h : s.Inv L) (hpc : (s.pc t).HalfChecked x)
    (hpass : x ∈ L → (s.mem.cells x).sender = true → pc.Ok s.mem L)
    (hreshapes : ∀ y, ¬ pc.Reshapes y) (hkills : ¬ pc.Kills)
    (hfree : ¬ pc.HoldsMutex) : (s.checkId t x pc).Inv L := by
  rw [Lifecycle.checkId]
  split
  · exact h.leave
  · next hid =>
      rw [not_not] at hid
      exact h.enter (hpass (h.mem.named x hid) ((h.task t).half x hpc hid)) hreshapes
        hkills hfree

/-- Linking session `x` behind the others. -/
theorem link (h : s.Inv L) {m : SenderMemory}
    (hpc : (s.pc t).Outside x ∧ (s.pc t).Unnamed x ∧ (s.pc t).Blank x)
    (hheld : (s.pc t).HoldsMutex) (hmem : m.Ok (L ++ [x]))
    (hid : m.id = s.mem.id) (hmutex : m.mutex = s.mem.mutex)
    (hcells : ∀ y, (m.cells y).id = (s.mem.cells y).id ∧
      (m.cells y).sender = (s.mem.cells y).sender)
    (hnext : ∀ y, y ∉ L → m.next y = s.mem.next y) :
    (s.write m t (.create x .linked)).Inv (L ++ [x]) := by
  have hown := hpc.2.2.reshapes
  refine h.write hmem ?_ ?_ ⟨?_, False.elim⟩ fun _ => hheld
  · intro t' ht
    refine (h.task t').relink hid hmutex hcells hnext ?_ ?_
      (h.not_holds hheld ht)
    · intro y _ hy
      exact List.mem_append_left _ hy
    · intro y hy hmem
      rw [List.mem_append, not_or, List.mem_singleton]
      refine ⟨hmem, ?_⟩
      rintro rfl
      exact h.not_reshapes hown ht hy.reshapes
  · exact
      { within := by
          rintro y rfl
          simp
        outside := fun _ => False.elim
        ends := fun _ => False.elim
        unnamed := by
          rintro y rfl
          rw [(hcells y).1]
          exact (h.task t).unnamed y hpc.2.1
        blank := by
          rintro y rfl
          rw [(hcells y).2]
          exact (h.task t).blank y hpc.2.2
        backed := fun _ => False.elim
        half := fun _ => False.elim
        fetched := trivial
        sender := False.elim
        kills := False.elim
        walks := trivial
        running := TaskPc.noConfusion }
  · rintro y ⟨rfl, -⟩
    exact hown

/-- Resetting a session that nobody works on. -/
theorem reset_session (h : s.Inv L) (hpc : s.pc t = .create x .validated)
    (hx : x ∉ L) (hnobody : ∀ t', t' ≠ t → ¬ (s.pc t').Reshapes x) :
    (s.write (s.mem.reset x) t (.create x .cleared)).Inv L := by
  have hold := h.task t
  rw [hpc] at hold
  refine h.move (h.mem.reset hx) (fun t' _ => (h.task t').reset hx) ?_
    False.elim (fun t' _ => h.owner t') ?_ False.elim
  · exact
      { hold.reset hx with
        outside := by
          rintro y rfl
          exact hx
        ends := by
          rintro y rfl
          simp
        unnamed := by
          rintro y rfl
          simp [SenderMemory.reset, SenderMemory.setCell, rtpSessionId]
        blank := by
          rintro y rfl
          simp [SenderMemory.reset, SenderMemory.setCell]
        running := TaskPc.noConfusion }
  · rintro y ⟨rfl, -⟩ t' ht
    exact hnobody t' ht

/-- The session gets its id once it is linked; nobody has seen an old back pointer
of it. -/
theorem name_session (h : s.Inv L) (hpc : s.pc t = .create x .given)
    (hnobody : ∀ t', t' ≠ t → ¬ (s.pc t').HalfChecked x) :
    (s.write (s.mem.setId x rtpSessionId) t (.create x .named)).Inv L := by
  have hold := h.task t
  rw [hpc] at hold
  have hx : x ∈ L := hold.within x rfl
  have hown : (s.pc t).Reshapes x := by
    rw [hpc]
    exact ⟨rfl, CreatePc.noConfusion, CreatePc.noConfusion⟩
  refine h.write (h.mem.setId fun _ => hx) ?_ ?_ ⟨?_, False.elim⟩ False.elim
  · intro t' ht
    apply (h.task t').setId
    rintro (hunnamed | hhalf)
    · rcases hunnamed.cases with hreshapes | hbacked
      · exact absurd hreshapes (h.not_reshapes hown ht)
      · have hset := (h.task t').backed x hbacked
        rw [hold.blank x rfl] at hset
        cases hset
    · exact absurd hhalf (hnobody t' ht)
  · have hnamed : (TaskPc.create x .named).Ok s.mem L :=
      { hold with
        unnamed := fun _ => False.elim
        running := TaskPc.noConfusion }
    apply hnamed.setId
    rintro (hunnamed | hhalf)
    · exact hunnamed.elim
    · exact hhalf.elim
  · rintro y ⟨rfl, -⟩
    exact hown

/-- The back pointer is set last. -/
theorem back_session (h : s.Inv L) (hpc : s.pc t = .create x .named) :
    (s.write (s.mem.setSender x true) t .idle).Inv L := by
  have hown : (s.pc t).Reshapes x := by
    rw [hpc]
    exact ⟨rfl, CreatePc.noConfusion, CreatePc.noConfusion⟩
  refine h.write (h.mem.setSender true) ?_ ?_ ⟨?_, False.elim⟩ False.elim
  · intro t' ht
    refine (h.task t').setSender ?_ (fun _ => rfl) fun _ => rfl
    intro hblank
    exact absurd hblank.reshapes (h.not_reshapes hown ht)
  · constructor <;> simp
  · intro y hy
    exact False.elim hy

/-- Creating a session: it is reset when nobody works on it and linked behind
the last session, and gets its id once it is linked. -/
theorem create_step (h : s.Inv L) {pc : CreatePc}
    (hpc : s.pc t = .create x pc) (hguard : Orderly s (.advance t))
    (hstep : s.createStep t x pc = some s') : ∃ L', s'.Inv L' := by
  have hold := h.task t
  rw [hpc] at hold
  have hheld : (TaskPc.create x pc).HoldsMutex → (s.pc t).HoldsMutex := by
    rw [hpc]
    exact id
  -- Once it has reset the session, the task has it for itself.
  have hown : pc ≠ .checked ∧ pc ≠ .validated → (s.pc t).Reshapes x := by
    intro hreset
    rw [hpc]
    exact ⟨rfl, hreset⟩
  have hkeeps : pc ≠ .checked ∧ pc ≠ .validated →
      ∀ pc', Keeps s t (.create x pc') := by
    intro hreset pc'
    refine ⟨?_, False.elim⟩
    rintro y ⟨rfl, -⟩
    exact hown hreset
  cases pc with
  | checked =>
      rw [createStep] at hstep
      split at hstep
      · cases hstep
        exact ⟨L, h.leave⟩
      · cases hstep
        refine ⟨L, h.enter ?_ (fun y hy => hy.2.2 rfl) id id⟩
        exact { hold with running := TaskPc.noConfusion }
  | validated =>
      cases hstep
      simp only [Orderly, hpc] at hguard
      obtain ⟨hlinked, hnobody⟩ := hguard
      have hx : x ∉ L := fun hx => hlinked (h.mem.linked_iff.mpr hx)
      exact ⟨L, h.reset_session hpc hx hnobody⟩
  | cleared =>
      refine ⟨L, h.take (h.mem.mutex (hold.sender trivial)) ?_
        (hkeeps (by simp) _) hstep⟩
      exact { hold with running := TaskPc.noConfusion }
  | locked =>
      simp only [createStep] at hstep
      split at hstep
      · next tail htail =>
          cases hstep
          refine ⟨L, h.goto ?_ (hkeeps (by simp) _) fun _ => hheld trivial⟩
          have hmem : tail ∈ L := by
            have hchain := h.mem.chain
            rw [htail] at hchain
            exact hchain.head_mem
          exact { hold with walks := hmem, running := TaskPc.noConfusion }
      · next hfirst =>
          cases hstep
          have hnil := h.mem.chain.eq_nil_iff.mpr hfirst
          subst hnil
          have hlinked := h.mem.link_first hfirst (hold.ends x rfl)
            (hold.sender trivial)
          refine ⟨[x], h.link ?_ (hheld trivial) hlinked rfl rfl
            (fun _ => ⟨rfl, rfl⟩) fun _ _ => rfl⟩
          rw [hpc]
          exact ⟨rfl, rfl, rfl⟩
  | walking tail =>
      have htail : tail ∈ L := hold.walks
      simp only [createStep] at hstep
      split at hstep
      · next tail' htail' =>
          cases hstep
          refine ⟨L, h.goto ?_ (hkeeps (by simp) _) fun _ => hheld trivial⟩
          have hmem : tail' ∈ L := h.mem.chain.next_mem htail htail'
          exact { hold with walks := hmem, running := TaskPc.noConfusion }
      · next hlast =>
          cases hstep
          have hlinked := h.mem.link htail hlast (hold.outside x rfl)
            (hold.ends x rfl) (hold.sender trivial)
          refine ⟨L ++ [x], h.link ?_ (hheld trivial) hlinked rfl rfl
            (setNext_cells s.mem tail (some x)) ?_⟩
          · rw [hpc]
            exact ⟨rfl, rfl, rfl⟩
          · intro y hy
            rw [setNext_next, Function.update_of_ne]
            rintro rfl
            exact hy htail
  | linked =>
      cases hstep
      have hx : x ∈ L := hold.within x rfl
      have hsender := h.mem.alive (List.ne_nil_of_mem hx)
      refine ⟨L, h.give (h.mem.mutex hsender) (hheld trivial) ?_
        (hkeeps (by simp) _) id⟩
      exact { hold with running := TaskPc.noConfusion }
  | given =>
      cases hstep
      simp only [Orderly, hpc] at hguard
      exact ⟨L, h.name_session hpc hguard⟩
  | named =>
      cases hstep
      exact ⟨L, h.back_session hpc⟩

/-- Unlinking session `x` while nobody relies on it. -/
theorem unlink (h : s.Inv L) {m : SenderMemory}
    (hpc : (s.pc t).Unnamed x ∧ (s.pc t).Backed x)
    (hheld : (s.pc t).HoldsMutex)
    (hnobody : ∀ t', t' ≠ t → ¬ (s.pc t').ReliesOnSession x)
    (hmem : m.Ok (L.erase x)) (hid : m.id = s.mem.id)
    (hmutex : m.mutex = s.mem.mutex)
    (hcells : ∀ y, (m.cells y).id = (s.mem.cells y).id ∧
      (m.cells y).sender = (s.mem.cells y).sender)
    (hnext : ∀ y, y ∉ L → m.next y = s.mem.next y) :
    (s.write m t (.delete x .unlinked)).Inv (L.erase x) := by
  have hbacked := (h.task t).backed x hpc.2
  have hx : x ∈ L := (h.task t).within x hpc.2.within
  have hblank : ∀ t', ¬ (s.pc t').Blank x := by
    intro t' hblank
    rw [(h.task t').blank x hblank] at hbacked
    cases hbacked
  refine h.move hmem ?_ ?_ (fun _ => h.owner t hheld)
    (fun t' _ => h.owner t') ?_ False.elim
  · intro t' ht
    refine (h.task t').relink hid hmutex hcells hnext ?_ ?_
      (h.not_holds hheld ht)
    · intro y hy hmem
      rw [h.mem.nodup.mem_erase_iff]
      refine ⟨?_, hmem⟩
      rintro rfl
      rcases hy.cases with hb | hrelies | hold
      · exact hblank t' hb
      · exact hnobody t' ht hrelies
      · exact h.not_holds hheld ht hold
    · intro y _ hy hmem
      exact hy (List.mem_of_mem_erase hmem)
  · exact
      { within := fun _ => False.elim
        outside := by
          rintro y rfl
          exact h.mem.nodup.not_mem_erase
        ends := fun _ => False.elim
        unnamed := by
          rintro y rfl
          rw [(hcells y).1]
          exact (h.task t).unnamed y hpc.1
        blank := fun _ => False.elim
        backed := fun _ => False.elim
        half := fun _ => False.elim
        fetched := trivial
        sender := fun _ => by
          rw [hid]
          exact h.mem.alive (List.ne_nil_of_mem hx)
        kills := False.elim
        walks := trivial
        running := TaskPc.noConfusion }
  · rintro y rfl t' ht hreshapes
    rcases hreshapes.cases with hb | hout
    · exact hblank t' hb
    · exact (h.task t').outside y hout hx

/-- The id of a session to be deleted is cleared first. -/
theorem unname_session (h : s.Inv L) {sender : Bool}
    (hpc : s.pc t = .delete x (.fetched sender)) :
    (s.write (s.mem.setId x 0) t (.delete x (.unnamed sender))).Inv L := by
  have hold := h.task t
  rw [hpc] at hold
  have hzero : (0 : UInt32) ≠ rtpSessionId := by decide
  refine h.write (h.mem.setId (absurd · hzero)) ?_ ?_
    ⟨fun _ => False.elim, False.elim⟩ False.elim
  · intro t' _
    exact (h.task t').setId fun _ => hzero
  · exact
      { hold.setId (fun _ => hzero) with
        unnamed := by
          rintro y rfl
          simpa [SenderMemory.setId, SenderMemory.setCell] using hzero
        running := TaskPc.noConfusion }

/-- The session is unlinked; the back pointer is cleared last. -/
theorem unback_session (h : s.Inv L) (hpc : s.pc t = .delete x .given) :
    (s.write (s.mem.setSender x false) t .idle).Inv L := by
  have hold := h.task t
  rw [hpc] at hold
  refine h.write (h.mem.setSender false) ?_ ?_
    ⟨fun _ => False.elim, False.elim⟩ False.elim
  · intro t' _
    refine (h.task t').setSender (fun _ => rfl) ?_ ?_
    · intro hbacked
      have hx := (h.task t').within x hbacked.within
      exact absurd hx (hold.outside x rfl)
    · intro hname
      exact absurd hname (hold.unnamed x rfl)
  · constructor <;> simp

/-- Deleting a session: its id is cleared, then it is unlinked when nobody
relies on it any more, and at last it loses its back pointer. -/
theorem delete_step (h : s.Inv L) {pc : DeletePc}
    (hpc : s.pc t = .delete x pc) (hguard : Orderly s (.advance t))
    (hstep : s.deleteStep t x pc = some s') : ∃ L', s'.Inv L' := by
  have hold := h.task t
  rw [hpc] at hold
  have hheld : (TaskPc.delete x pc).HoldsMutex → (s.pc t).HoldsMutex := by
    rw [hpc]
    exact id
  cases pc with
  | checked =>
      cases hstep
      refine ⟨L, h.check_id (by rw [hpc]; rfl) ?_ (fun y => id) id id⟩
      intro hx hbacked
      constructor <;> simp [hx, hbacked]
  | validated =>
      cases hstep
      refine ⟨L, h.goto ?_ ⟨fun _ => False.elim, False.elim⟩ False.elim⟩
      exact
        { hold with
          fetched := hold.backed x rfl
          running := TaskPc.noConfusion }
  | fetched sender =>
      cases hstep
      exact ⟨L, h.unname_session hpc⟩
  | unnamed sender =>
      have hx : x ∈ L := hold.within x rfl
      have hmutex := h.mem.mutex (h.mem.alive (List.ne_nil_of_mem hx))
      have hsender : sender = true := hold.fetched
      rw [deleteStep, if_pos hsender] at hstep
      refine ⟨L, h.take hmutex ?_ ⟨fun _ => False.elim, False.elim⟩ hstep⟩
      exact
        { hold with
          fetched := trivial
          running := TaskPc.noConfusion }
  | locked =>
      have hx : x ∈ L := hold.within x rfl
      simp only [Orderly, hpc] at hguard
      simp only [deleteStep] at hstep
      split at hstep
      · next hfirst =>
          cases hstep
          have hunlinked := h.mem.unlink_first hfirst (hold.unnamed x rfl)
          refine ⟨L.erase x, h.unlink ?_ (hheld trivial) hguard hunlinked rfl
            rfl (fun _ => ⟨rfl, rfl⟩) fun _ _ => rfl⟩
          rw [hpc]
          exact ⟨rfl, rfl⟩
      · next hfirst =>
          have hchain := h.mem.chain
          cases L with
          | nil => exact absurd hx List.not_mem_nil
          | cons prev B =>
              have hhead : s.mem.session = some prev := hchain.1
              rw [hhead] at hstep hfirst
              cases hstep
              refine ⟨prev :: B, h.goto ?_ ⟨fun _ => False.elim, False.elim⟩
                fun _ => hheld trivial⟩
              have hmem : x ∈ B := by
                rcases List.mem_cons.mp hx with rfl | hmem
                · exact absurd rfl hfirst
                · exact hmem
              exact
                { hold with
                  walks := ⟨[], B, rfl, hmem⟩
                  running := TaskPc.noConfusion }
  | walking prev =>
      simp only [Orderly, hpc] at hguard
      obtain ⟨A, B, rfl, hx⟩ := hold.walks
      have hbehind := h.mem.chain.drop
      cases B with
      | nil => exact absurd hx List.not_mem_nil
      | cons this B =>
          have hthis : s.mem.next prev = some this := hbehind.1
          simp only [deleteStep, hthis] at hstep
          split at hstep
          · next heq =>
              subst heq
              cases hstep
              have hunnamed := hold.unnamed this rfl
              refine ⟨_, h.unlink ?_ (hheld trivial) hguard
                (h.mem.unlink hunnamed) rfl rfl
                (setNext_cells s.mem prev (s.mem.next this)) ?_⟩
              · rw [hpc]
                exact ⟨rfl, rfl⟩
              · intro y hy
                rw [setNext_next, Function.update_of_ne]
                rintro rfl
                exact hy (by simp)
          · next hne =>
              cases hstep
              refine ⟨_, h.goto ?_ ⟨fun _ => False.elim, False.elim⟩
                fun _ => hheld trivial⟩
              have hmem : x ∈ B := by
                rcases List.mem_cons.mp hx with rfl | hmem
                · exact absurd rfl hne
                · exact hmem
              exact
                { hold with
                  walks := ⟨A ++ [prev], B, by simp, hmem⟩
                  running := TaskPc.noConfusion }
  | unlinked =>
      cases hstep
      have hmutex := h.mem.mutex (hold.sender trivial)
      refine ⟨L, h.give hmutex (hheld trivial) ?_ ⟨?_, False.elim⟩ id⟩
      · exact
          { hold with
            sender := False.elim
            running := TaskPc.noConfusion }
      · rintro y rfl
        rw [hpc]
        exact rfl
  | given =>
      cases hstep
      exact ⟨L, h.unback_session hpc⟩

theorem send_step (h : s.Inv L) {pc : PacketPc} (hpc : s.pc t = .send x pc)
    (hstep : s.sendStep t x pc = some s') : s'.Inv L := by
  have hold := h.task t
  rw [hpc] at hold
  have hheld : (TaskPc.send x pc).HoldsMutex → (s.pc t).HoldsMutex := by
    rw [hpc]
    exact id
  cases pc with
  | checked =>
      cases hstep
      refine h.check_id (by rw [hpc]; rfl) ?_ (fun y => id) id id
      intro hx hbacked
      constructor <;> simp [hx, hbacked]
  | validated =>
      rw [sendStep, if_pos (hold.backed x rfl)] at hstep
      cases hstep
      refine h.goto ?_ ⟨fun _ => False.elim, False.elim⟩ False.elim
      exact { hold with running := TaskPc.noConfusion }
  | addressed =>
      have hx : x ∈ L := hold.within x rfl
      have hmutex := h.mem.mutex (h.mem.alive (List.ne_nil_of_mem hx))
      rw [sendStep, if_pos (hold.backed x rfl)] at hstep
      refine h.take hmutex ?_ ⟨fun _ => False.elim, False.elim⟩ hstep
      exact { hold with running := TaskPc.noConfusion }
  | locked =>
      have hx : x ∈ L := hold.within x rfl
      have hmutex := h.mem.mutex (h.mem.alive (List.ne_nil_of_mem hx))
      rw [sendStep, if_pos (hold.backed x rfl)] at hstep
      cases hstep
      refine h.give hmutex (hheld trivial) ?_
        ⟨fun _ => False.elim, False.elim⟩ id
      constructor <;> simp

theorem iterate_step (h : s.Inv L) (hstep : s.iterate t = some s') :
    s' = s := by
  unfold Lifecycle.iterate at hstep
  split at hstep
  · next x hpc =>
      have hold := h.task t
      rw [hpc] at hold
      rw [if_pos (hold.backed x rfl)] at hstep
      cases hstep
      rfl
  · cases hstep

/-- A sender without sessions loses its id when nobody relies on it. -/
theorem unname_sender (h : s.Inv []) (hpc : s.pc t = .cleanup .locked)
    (hnobody : ∀ t', t' ≠ t → ¬ (s.pc t').ReliesOnSender) :
    (s.write { s.mem with id := 0 } t (.cleanup .unnamed)).Inv [] := by
  have hold := h.task t
  rw [hpc] at hold
  have hheld : (s.pc t).HoldsMutex := by
    rw [hpc]
    trivial
  have hzero : (0 : UInt32) ≠ rtpSenderId := by decide
  have hsender := hold.sender trivial
  refine h.move ?_ ?_ ?_ (fun _ => h.owner t hheld)
    (fun t' _ => h.owner t') (fun _ => False.elim) ?_
  · exact ⟨h.mem.chain, h.mem.nodup, h.mem.named,
      fun hne => absurd rfl hne, fun heq => absurd heq hzero,
      fun _ => hzero⟩
  · intro t' ht
    apply (h.task t').unname
    intro hneeds
    rcases hneeds.cases with hrelies | hholds
    · exact hnobody t' ht hrelies
    · exact h.not_holds hheld ht hholds
  · constructor <;> simp [rtpSenderId, h.mem.mutex hsender]
  · intro _ t' _ hkills
    exact ((h.task t').kills hkills).1 hsender

/-- Deleting the sender: its id is cleared when the list is empty and nobody
relies on the sender. -/
theorem cleanup_step (h : s.Inv L) {pc : CleanupPc}
    (hpc : s.pc t = .cleanup pc) (hguard : Orderly s (.advance t))
    (hstep : s.cleanupStep t pc = some s') : s'.Inv L := by
  have hold := h.task t
  rw [hpc] at hold
  have hheld : (TaskPc.cleanup pc).HoldsMutex → (s.pc t).HoldsMutex := by
    rw [hpc]
    exact id
  cases pc with
  | validated =>
      refine h.take (h.mem.mutex (hold.sender trivial)) ?_
        ⟨fun _ => False.elim, False.elim⟩ hstep
      exact { hold with running := TaskPc.noConfusion }
  | locked =>
      simp only [Orderly, hpc] at hguard
      simp only [cleanupStep] at hstep
      split at hstep
      · cases hstep
        refine h.goto ?_ ⟨fun _ => False.elim, False.elim⟩
          fun _ => hheld trivial
        exact { hold with running := TaskPc.noConfusion }
      · next hempty =>
          rw [not_not] at hempty
          cases hstep
          have hnil := h.mem.chain.eq_nil_iff.mpr hempty
          subst hnil
          exact h.unname_sender hpc (hguard hempty)
  | refused =>
      cases hstep
      have hmutex := h.mem.mutex (hold.sender trivial)
      refine h.give hmutex (hheld trivial) ?_
        ⟨fun _ => False.elim, False.elim⟩ id
      constructor <;> simp
  | unnamed =>
      cases hstep
      refine h.give (hold.kills trivial).2 (hheld trivial) ?_
        ⟨fun _ => False.elim, ?_⟩ id
      · exact { hold with running := TaskPc.noConfusion }
      · intro _
        rw [hpc]
        trivial
  | given =>
      cases hstep
      have hkills : (s.pc t).Kills := by
        rw [hpc]
        trivial
      have hdead := (hold.kills trivial).1
      refine h.write ?_ ?_ ?_ ⟨fun _ => False.elim, False.elim⟩ False.elim
      · exact ⟨h.mem.chain, h.mem.nodup, h.mem.named, h.mem.alive,
          fun heq => absurd heq hdead, fun _ => hdead⟩
      · intro t' ht
        exact (h.task t').cleanup (h.not_kills hkills ht)
      · constructor <;> simp

theorem advance_step (h : s.Inv L) (hguard : Orderly s (.advance t))
    (hstep : s.advance t = some s') : ∃ L', s'.Inv L' := by
  unfold Lifecycle.advance at hstep
  split at hstep
  · cases hstep
  · next x pc hpc => exact h.create_step hpc hguard hstep
  · next x pc hpc => exact h.delete_step hpc hguard hstep
  · next x pc hpc => exact ⟨L, h.send_step hpc hstep⟩
  · next pc hpc => exact ⟨L, h.cleanup_step hpc hguard hstep⟩
  · cases hstep

theorem live (h : s.Inv L) : s.Live where
  deleted_unlinked hdeleted x hlinked := by
    have hx := h.mem.linked_iff.mp hlinked
    exact h.mem.deleted hdeleted (h.mem.alive (List.ne_nil_of_mem hx))
  send_linked task x hpc := by
    have hold := h.task task
    rw [hpc] at hold
    exact h.mem.linked_iff.mpr (hold.within x rfl)
  send_sender task x hpc := by
    have hold := h.task task
    rw [hpc] at hold
    exact hold.backed x rfl
  mutex_exists task htouches := by
    rcases htouches.cases with hneeds | ⟨x, hwithin⟩ | hkills
    · exact h.mem.mutex ((h.task task).sender hneeds)
    · have hx := (h.task task).within x hwithin
      exact h.mem.mutex (h.mem.alive (List.ne_nil_of_mem hx))
    · exact ((h.task task).kills hkills).2
  no_crash task := (h.task task).running

end Inv

end Lifecycle

/-! ## Runs -/

theorem lifecycleMachine_init {s : Lifecycle} (h : lifecycleMachine.init s) :
    s.Inv [] := by
  obtain ⟨hid, hsession, hmutex, hdeleted, hcells, -, hidle⟩ := h
  refine ⟨⟨hsession, List.nodup_nil, ?_, fun hne => absurd rfl hne,
    fun _ => hmutex, ?_⟩, ?_, ?_, ?_, ?_⟩
  · intro x hx
    exact absurd hx (hcells x)
  · intro htrue
    rw [hdeleted] at htrue
    cases htrue
  · intro t
    rw [hidle]
    constructor <;> simp
  · intro t hold
    rw [hidle] at hold
    exact hold.elim
  · intro x t t' hreshapes
    rw [hidle] at hreshapes
    exact hreshapes.elim
  · intro t t' hkills
    rw [hidle] at hkills
    exact hkills.elim

/-- In every run of orderly steps all tasks work on live objects. -/
theorem lifecycleMachine_live {s : Lifecycle}
    (h : lifecycleMachine.ReachableVia Orderly s) : s.Live := by
  have hinit : ∀ s, lifecycleMachine.init s → ∃ L, s.Inv L := by
    intro s hs
    exact ⟨[], lifecycleMachine_init hs⟩
  have hstep : ∀ s a s', (∃ L, s.Inv L) → Orderly s a →
      lifecycleMachine.step s a = some s' → ∃ L, s'.Inv L := by
    rintro s a s' ⟨L, hs⟩ hguard hstep
    cases a with
    | call task c => exact ⟨L, hs.call_step hstep⟩
    | advance task => exact hs.advance_step hguard hstep
    | iterate task =>
        rw [hs.iterate_step hstep]
        exact ⟨L, hs⟩
  obtain ⟨L, hs⟩ := Machine.ReachableVia.invariant hinit hstep h
  exact hs.live

/-- A created sender before the first call. -/
def newLifecycle : Lifecycle where
  mem := ⟨rtpSenderId, none, true, false, fun _ => ⟨0, false, none⟩⟩
  owner := none
  pc _ := .idle

theorem newLifecycle_init : lifecycleMachine.init newLifecycle := by
  refine ⟨rfl, rfl, rfl, rfl, ?_, rfl, fun _ => rfl⟩
  intro x
  exact (by decide : (0 : UInt32) ≠ rtpSessionId)

/-- Task 0 creates session 0. -/
def createRun : List LifecycleAction :=
  .call 0 (.create 0) :: List.replicate 7 (.advance 0)

/-- Task 1 sends on session 0 while task 0 waits to delete it, and does delete it
then. -/
def deleteRun : List LifecycleAction :=
  .call 1 (.send 0) :: .call 0 (.delete 0) :: List.replicate 3 (.advance 1) ++
    List.replicate 3 (.advance 0) ++ .iterate 1 :: .advance 1 ::
      List.replicate 4 (.advance 0)

/-- Task 1 is in its critical section on session 0. -/
def sendRun : List LifecycleAction :=
  .call 1 (.send 0) :: List.replicate 3 (.advance 1)

/-- With the other tasks outside every call only a session that is in the list must
not be reset. -/
theorem orderly_of_idle {s : Lifecycle} {task : ℕ}
    (hidle : ∀ task', task' ≠ task → s.pc task' = .idle)
    (hlinked : ∀ x, s.pc task = .create x .validated → ¬ s.mem.Linked x) :
    Orderly s (.advance task) := by
  unfold Orderly
  dsimp only
  split
  · next x hpc =>
      refine ⟨hlinked x hpc, ?_⟩
      intro task' htask
      rw [hidle task' htask]
      exact id
  · intro task' htask
    rw [hidle task' htask]
    exact id
  · intro task' htask
    rw [hidle task' htask]
    exact id
  · intro task' htask
    rw [hidle task' htask]
    exact id
  · intro _ task' htask
    rw [hidle task' htask]
    exact id
  · trivial

/-- A task that moves leaves another one outside every call. -/
theorem update_idle {f : ℕ → TaskPc} {t t' : ℕ} {pc : TaskPc} (ht : t' ≠ t)
    (hidle : f t' = .idle) : Function.update f t pc t' = .idle := by
  rw [Function.update_of_ne ht, hidle]

theorem idle_besides {f : ℕ → TaskPc} {t t' : ℕ} (hother : f t' = .idle)
    (hrest : ∀ t'', t'' ≠ t → t'' ≠ t' → f t'' = .idle) : ∀ t'', t'' ≠ t → f t'' = .idle := by
  intro t'' ht
  by_cases h : t'' = t'
  · rw [h, hother]
  · exact hrest t'' ht h

theorem overlapRun_orderly :
    lifecycleMachine.Meets Orderly newLifecycle
      (createRun ++ deleteRun ++ createRun ++ sendRun) := by
  iterate 2
    refine ⟨trivial, ?_⟩
    rintro _ ⟨⟩
  refine ⟨orderly_of_idle ?_ ?_, ?_⟩
  · intro t' ht
    exact update_idle ht (update_idle ht rfl)
  · rintro _ ⟨⟩
    exact not_reaches_none
  rintro _ ⟨⟩
  iterate 3
    refine ⟨trivial, ?_⟩
    rintro _ ⟨⟩
  refine ⟨orderly_of_idle ?_ ?_, ?_⟩
  · intro t' ht
    iterate 6 refine update_idle ht ?_
    rfl
  · rintro _ ⟨⟩
  rintro _ ⟨⟩
  iterate 12
    refine ⟨trivial, ?_⟩
    rintro _ ⟨⟩
  refine ⟨orderly_of_idle (@idle_besides _ _ 1 rfl ?_) ?_, ?_⟩
  · intro t' ht h1
    repeat first
      | exact rfl
      | refine update_idle ht ?_
      | refine update_idle h1 ?_
  · rintro _ ⟨⟩
  rintro _ ⟨⟩
  iterate 4
    refine ⟨trivial, ?_⟩
    rintro _ ⟨⟩
  refine ⟨orderly_of_idle (@idle_besides _ _ 1 rfl ?_) ?_, ?_⟩
  · intro t' ht h1
    repeat first
      | exact rfl
      | refine update_idle ht ?_
      | refine update_idle h1 ?_
  · rintro _ ⟨⟩
    exact not_reaches_none
  rintro _ ⟨⟩
  iterate 3
    refine ⟨trivial, ?_⟩
    rintro _ ⟨⟩
  refine ⟨orderly_of_idle (@idle_besides _ _ 1 rfl ?_) ?_, ?_⟩
  · intro t' ht h1
    repeat first
      | exact rfl
      | refine update_idle ht ?_
      | refine update_idle h1 ?_
  · rintro _ ⟨⟩
  rintro _ ⟨⟩
  iterate 5
    refine ⟨trivial, ?_⟩
    rintro _ ⟨⟩
  exact trivial

/-- A session is deleted after a send call on it, created again and sent on. -/
theorem lifecycleMachine_live_overlap :
    ∃ s : Lifecycle, s.pc 1 = .send 0 .locked ∧ s.pc 0 = .idle ∧
      s.mem.session = some 0 ∧ s.Live := by
  have hrun : ((lifecycleMachine.run newLifecycle
      (createRun ++ deleteRun ++ createRun ++ sendRun)).map
      fun s => (s.pc 1, s.pc 0, s.mem.session)) =
      some (.send 0 .locked, .idle, some 0) := by
    decide +kernel
  obtain ⟨s, hs, hend⟩ := Option.map_eq_some_iff.mp hrun
  rw [Prod.mk.injEq, Prod.mk.injEq] at hend
  refine ⟨s, hend.1, hend.2.1, hend.2.2, lifecycleMachine_live ?_⟩
  exact (Machine.ReachableVia.init newLifecycle_init).run _ overlapRun_orderly hs

/-- Task 0 deletes session 0 between the checks and the critical section of a
send call: the call works on an unlinked session without back pointer.  A
sender that is deleted between the checks and the critical section of a create
call leaves that call with a deleted mutex.  A session that is deleted and created
again between the two checks of a send call has its id before its back pointer: the
call passes and goes through a null pointer. -/
theorem lifecycleMachine_not_live :
    (∃ s, lifecycleMachine.Reachable s ∧ s.pc 1 = .send 0 .locked ∧
      ¬ s.mem.Linked 0 ∧ (s.mem.cells 0).sender = false ∧ ¬ s.Live) ∧
    (∃ s, lifecycleMachine.Reachable s ∧ (s.pc 0).TouchesMutex ∧
      s.mem.deleted = true ∧ s.mem.mutex = false ∧ ¬ s.Live) ∧
    (∃ s, lifecycleMachine.Reachable s ∧ s.pc 1 = .crashed ∧ ¬ s.Live) := by
  refine ⟨?_, ?_, ?_⟩
  · have hrun : ((lifecycleMachine.run newLifecycle
        (createRun ++ .call 1 (.send 0) :: List.replicate 2 (.advance 1) ++
          .call 0 (.delete 0) :: List.replicate 6 (.advance 0) ++
            [.advance 1, .advance 0])).map
        fun s => (s.pc 1, s.mem.session, (s.mem.cells 0).sender)) =
        some (.send 0 .locked, none, false) := by
      decide +kernel
    obtain ⟨s, hs, hend⟩ := Option.map_eq_some_iff.mp hrun
    rw [Prod.mk.injEq, Prod.mk.injEq] at hend
    obtain ⟨hpc, hsession, hsender⟩ := hend
    have hunlinked : ¬ s.mem.Linked 0 := by
      rw [SenderMemory.Linked, hsession]
      exact not_reaches_none
    refine ⟨s, Machine.reachable_of_run newLifecycle_init _ hs, hpc, hunlinked,
      hsender, ?_⟩
    intro hlive
    exact hunlinked (hlive.send_linked 1 0 hpc)
  · have hrun : ((lifecycleMachine.run newLifecycle
        (.call 0 (.create 0) :: .advance 0 :: .call 1 .cleanup ::
          List.replicate 4 (.advance 1) ++ [.advance 0])).map
        fun s => (s.pc 0, s.mem.deleted, s.mem.mutex)) =
        some (.create 0 .cleared, true, false) := by
      decide +kernel
    obtain ⟨s, hs, hend⟩ := Option.map_eq_some_iff.mp hrun
    rw [Prod.mk.injEq, Prod.mk.injEq] at hend
    obtain ⟨hpc, hdeleted, hmutex⟩ := hend
    have htouches : (s.pc 0).TouchesMutex := by
      rw [hpc]
      trivial
    refine ⟨s, Machine.reachable_of_run newLifecycle_init _ hs, htouches,
      hdeleted, hmutex, ?_⟩
    intro hlive
    rw [hlive.mutex_exists 0 htouches] at hmutex
    cases hmutex
  · have hrun : ((lifecycleMachine.run newLifecycle
        (createRun ++ .call 1 (.send 0) :: .call 0 (.delete 0) ::
          List.replicate 7 (.advance 0) ++ .call 0 (.create 0) ::
            List.replicate 6 (.advance 0) ++ List.replicate 2 (.advance 1))).map
        fun s => s.pc 1) = some .crashed := by
      decide +kernel
    obtain ⟨s, hs, hpc⟩ := Option.map_eq_some_iff.mp hrun
    refine ⟨s, Machine.reachable_of_run newLifecycle_init _ hs, hpc, ?_⟩
    intro hlive
    exact hlive.no_crash 1 hpc

end RtpMulticast
