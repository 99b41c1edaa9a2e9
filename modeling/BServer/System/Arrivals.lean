import BServer.System.Links

/-!
# `System.Arrivals` — what the server reads on a session

`Net.FrameParser` follows the read handlers of one session over one stream. In the server the completions of all
sessions come in any order, between writes, closes and everything the workers do. Here a session of the server is
shown to read as if it were alone (`Reading`): what it has handed to the task queue, and where it stands, are a
matter of the bytes that were read on it, and of nothing else that happened.

So each session has queued exactly the frames that the reference parser finds in its bytes, and an open one waits
for the next piece (`what_arrives_is_queued`). It is the counterpart of `System.Links` on the other half.
-/

namespace BServer

open Bytes

/-! ## One session, read by read -/

/-- What an act hands to the queue. -/
def ReadAct.message : ReadAct → Option MessageFormat
  | .push m => some m
  | .close  => none

/-- The read half of a session, and all that its handlers did. -/
structure ReadLink where
  side : ReadSide
  acts : List ReadAct

namespace ReadLink

/-- The outstanding read completes with the bytes it asked for. -/
def step (l : ReadLink) (d : Bytes) : Option ReadLink :=
  match l.side.pending with
  | none => none
  | some p =>
      if d.length = p.count then
        let out := l.side.complete p d
        some ⟨out.1, l.acts ++ out.2⟩
      else none

theorem step_eq {l : ReadLink} {p : AsyncRead} {d : Bytes} (hp : l.side.pending = some p)
    (hd : d.length = p.count) :
    step l d = some ⟨(l.side.complete p d).1, l.acts ++ (l.side.complete p d).2⟩ := by
  simp only [step, hp, hd, if_true]

/-- The messages handed to the queue. -/
def pushed (l : ReadLink) : List MessageFormat := l.acts.filterMap ReadAct.message

/-- **Read by read** is what the loop over the stream does, however the stream is cut. -/
theorem run_readLoop {l l' : ReadLink} {ds : List Bytes} (hrun : Run.run step l ds = some l') :
    ∀ (segs : List Bytes) (tail : Bytes), segs.flatten = ds.flatten ++ tail →
      ∃ new rest, l'.acts = l.acts ++ new ∧ rest.flatten = tail ∧
        readLoop l.side segs = resume (l'.side, new) rest := by
  induction ds generalizing l with
  | nil =>
      intro segs tail hsegs
      cases hrun
      refine ⟨[], segs, (List.append_nil _).symm, hsegs, ?_⟩
      rw [resume, List.nil_append]
  | cons d ds ih =>
      intro segs tail hsegs
      obtain ⟨u, hu, hrun⟩ := Option.bind_eq_some_iff.mp hrun
      cases hp : l.side.pending with
      | none => simp [step, hp] at hu
      | some p =>
          by_cases hd : d.length = p.count
          · rw [step_eq hp hd] at hu
            cases hu
            rw [List.flatten_cons, List.append_assoc] at hsegs
            have hle : p.count ≤ segs.flatten.length := by
              rw [hsegs, List.length_append, hd]
              exact Nat.le_add_right _ _
            obtain ⟨rest, hrest, hloop⟩ := readLoop_step hp hle
            have htake : segs.flatten.take p.count = d := by rw [hsegs, ← hd, List.take_left]
            have hdrop : rest.flatten = ds.flatten ++ tail := by rw [hrest, hsegs, ← hd, List.drop_left]
            obtain ⟨new, rest', hacts, hrest', hnext⟩ := ih hrun rest tail hdrop
            refine ⟨(l.side.complete p d).2 ++ new, rest', ?_, hrest', ?_⟩
            · rw [hacts, List.append_assoc]
            · rw [hloop, htake, resume, hnext, resume, resume, List.append_assoc]
          · simp [step, hp, hd] at hu

/-- **What was read.** From a frame boundary, the messages are the frames of the parser, and the session stands
    where the parser stopped, with nothing left over. -/
theorem run_refines {r : ReadSide} {id : Bytes} (hr : AtBoundary id r) {l : ReadLink} {ds : List Bytes}
    (hrun : Run.run step ⟨r, []⟩ ds = some l) :
    List.Forall₂ (Delivered id) (deliverable (parseFrames ds.flatten).1) l.pushed ∧
    (ReadAct.close ∈ l.acts ↔ (parseFrames ds.flatten).2 = .badLength) ∧
    ∃ rest, rest.flatten = [] ∧ StoppedAt id l.side rest (parseFrames ds.flatten).2 := by
  obtain ⟨new, rest, hacts, hrest, hloop⟩ := run_readLoop hrun ds [] (List.append_nil _).symm
  -- the loop had nothing left to read
  have hstill : readLoop l.side rest = (l.side, rest, []) := by
    cases hp : l.side.pending with
    | none => exact readLoop_idle hp
    | some p =>
        apply readLoop_starved hp
        rw [hrest]
        exact p.count_pos
  rw [resume, hstill, List.append_nil] at hloop
  obtain ⟨r', rest', msgs, hrefines, hall, hstop⟩ := readLoop_refines id ds.flatten r ds hr rfl
  rw [hrefines] at hloop
  obtain ⟨rfl, rfl, rfl⟩ : r' = l.side ∧ rest' = rest ∧
      msgs.map ReadAct.push ++ closing (parseFrames ds.flatten).2 = new := by
    simpa only [Prod.mk.injEq] using hloop
  rw [List.nil_append] at hacts
  refine ⟨?_, ?_, rest', hrest, hstop⟩
  · have hpushed : l.pushed = msgs := by
      rw [pushed, hacts, List.filterMap_append, List.filterMap_map]
      have hclosing : ∀ stop, (closing stop).filterMap ReadAct.message = ([] : List MessageFormat) := by
        intro stop
        cases stop with
        | badLength => rfl
        | inHeader left => rfl
        | inBody left => rfl
      rw [hclosing, List.append_nil]
      exact List.filterMap_some
    rw [hpushed]
    exact hall
  · rw [hacts]
    cases (parseFrames ds.flatten).2 with
    | badLength => simp [closing]
    | inHeader left => simp [closing]
    | inBody left => simp [closing]

end ReadLink

namespace World

/-- The bytes of a completed read of session `x`. -/
def Event.bytesOn (x : SessPtr) : Event → List Bytes
  | .received y d => if y = x then [d] else []
  | _ => []

/-- What session `x` handed to the queue. -/
def queuedOn (w : World) (x : SessPtr) : List MessageFormat := (w.pushed.filter (fun p => p.1 = x)).map Prod.snd

/-- Session `x` stands as before, or closed; one that is not there is still not there. -/
structure Quiet (x : SessPtr) (w w' : World) : Prop where
  session : ∀ q : Session, w.sessions[x]? = some q →
    ∃ q' : Session, w'.sessions[x]? = some q' ∧ q'.read = q.read ∧ q'.id = q.id ∧ (q.shut = true → q'.shut = true)
  absent  : w.sessions[x]? = none → w'.sessions[x]? = none
  queued  : w'.queuedOn x = w.queuedOn x

theorem quiet_refl (x : SessPtr) (w : World) : Quiet x w w := ⟨fun q hx => ⟨q, hx, rfl, rfl, id⟩, id, rfl⟩

theorem Quiet.trans {x : SessPtr} {w₁ w₂ w₃ : World} (h₁ : Quiet x w₁ w₂) (h₂ : Quiet x w₂ w₃) : Quiet x w₁ w₃ := by
  refine ⟨fun q hx => ?_, fun hx => h₂.absent (h₁.absent hx), h₂.queued.trans h₁.queued⟩
  obtain ⟨q', hx', hread, hid, hshut⟩ := h₁.session q hx
  obtain ⟨q'', hx'', hread', hid', hshut'⟩ := h₂.session q' hx'
  exact ⟨q'', hx'', hread'.trans hread, hid'.trans hid, fun h => hshut' (hshut h)⟩

theorem quiet_set {w w' : World} {x y : SessPtr} {s s' : Session} (hy : w.sessions[y]? = some s)
    (hset : w'.sessions = w.sessions.set y s')
    (hsame : y = x → s'.read = s.read ∧ s'.id = s.id ∧ (s.shut = true → s'.shut = true))
    (hqueued : w'.queuedOn x = w.queuedOn x) : Quiet x w w' := by
  refine ⟨fun q hx => ?_, fun hx => ?_, hqueued⟩
  case refine_2 =>
    rw [List.getElem?_eq_none_iff] at hx ⊢
    rw [hset, List.length_set]
    exact hx
  rw [hset]
  by_cases hyx : y = x
  · subst hyx
    rw [hy] at hx
    cases hx
    obtain ⟨hread, hid, hshut⟩ := hsame rfl
    exact ⟨s', List.getElem?_set_self (List.getElem?_eq_some_iff.mp hy).1, hread, hid, hshut⟩
  · exact ⟨q, (List.getElem?_set_ne hyx).trans hx, rfl, rfl, id⟩

theorem quiet_close (x y : SessPtr) (w : World) : Quiet x w (w.close y) := by
  cases hy : w.sessions[y]? with
  | none =>
      rw [close, hy]
      exact quiet_refl x w
  | some s =>
      refine quiet_set hy (sessions_close hy) (fun _ => ⟨rfl, rfl, fun _ => rfl⟩) ?_
      rw [close_eq hy]
      rfl

/-- What another session's handler asks for. -/
theorem quiet_carryOut {x y : SessPtr} (hyx : y ≠ x) (w : World) (as : List ReadAct) :
    Quiet x w (w.carryOut y as) := by
  induction as generalizing w with
  | nil => exact quiet_refl x w
  | cons a as ih =>
      cases a with
      | push m =>
          have hpush : Quiet x w { w with pushed := w.pushed ++ [(y, m)] } :=
            ⟨fun q hx => ⟨q, hx, rfl, rfl, id⟩, id, by simp [queuedOn, hyx]⟩
          exact hpush.trans (ih _)
      | close => exact (quiet_close x y w).trans (ih _)

/-- What a session's own handler asks for is queued, and closes it if it asks for that. -/
theorem carryOut_spec {x : SessPtr} {w : World} {q : Session} (hx : w.sessions[x]? = some q) (as : List ReadAct) :
    (w.carryOut x as).queuedOn x = w.queuedOn x ++ as.filterMap ReadAct.message ∧
    ∃ q' : Session, (w.carryOut x as).sessions[x]? = some q' ∧ q'.read = q.read ∧ q'.id = q.id ∧
      (q.shut = true ∨ ReadAct.close ∈ as → q'.shut = true) := by
  induction as generalizing w q with
  | nil => exact ⟨(List.append_nil _).symm, q, hx, rfl, rfl, fun h => h.resolve_right List.not_mem_nil⟩
  | cons a as ih =>
      cases a with
      | push m =>
          obtain ⟨hqueued, q', hx', hread, hid, hshut⟩ := ih (w := { w with pushed := w.pushed ++ [(x, m)] }) hx
          refine ⟨?_, q', hx', hread, hid, fun h => hshut ?_⟩
          · rw [carryOut, hqueued]
            simp [queuedOn, ReadAct.message]
          · simpa using h
      | close =>
          have hlt := (List.getElem?_eq_some_iff.mp hx).1
          have hxc : (w.close x).sessions[x]? = some { q with shut := true } := by
            rw [sessions_close hx, List.getElem?_set_self hlt]
          obtain ⟨hqueued, q', hx', hread, hid, hshut⟩ := ih hxc
          refine ⟨?_, q', hx', hread, hid, fun _ => hshut (Or.inl rfl)⟩
          rw [carryOut, hqueued, (quiet_close x x w).queued]
          rfl

/-! ## A session of the program -/

/-- **A session reads as if it were alone.** It was brought up at a frame boundary, or refused; the pieces `ds` were
    read on it, one by one; it stands where that leaves it, or its last read failed; and it handed over what its
    handlers pushed. -/
structure Reading (ds : List Bytes) (msgs : List MessageFormat) (q : Session) : Prop where
  link : ∃ (r : ReadSide) (l : ReadLink), Run.run ReadLink.step ⟨r, []⟩ ds = some l ∧ msgs = l.pushed ∧
    (AtBoundary q.id r ∨ r.pending = none ∧ q.shut = true) ∧
    (q.read = l.side ∨ q.read.pending = none ∧ q.shut = true) ∧
    (ReadAct.close ∈ l.acts → q.shut = true)

theorem Reading.quiet {ds : List Bytes} {msgs : List MessageFormat} {q q' : Session} (h : Reading ds msgs q)
    (hread : q'.read = q.read) (hid : q'.id = q.id) (hshut : q.shut = true → q'.shut = true) :
    Reading ds msgs q' := by
  obtain ⟨r, l, hrun, hmsgs, hstart, hnow, hclose⟩ := h.link
  refine ⟨r, l, hrun, hmsgs, ?_, ?_, fun hc => hshut (hclose hc)⟩
  · rw [hid]
    exact hstart.imp_right (And.imp_right hshut)
  · rw [hread]
    exact hnow.imp_right (And.imp_right hshut)

/-- A read completes. -/
theorem Reading.complete {ds : List Bytes} {msgs : List MessageFormat} {q q' : Session} {p : AsyncRead} {d : Bytes}
    (h : Reading ds msgs q) (hp : q.read.pending = some p) (hd : d.length = p.count)
    (hread : q'.read = (q.read.complete p d).1) (hid : q'.id = q.id)
    (hshut : q.shut = true ∨ ReadAct.close ∈ (q.read.complete p d).2 → q'.shut = true) :
    Reading (ds ++ [d]) (msgs ++ (q.read.complete p d).2.filterMap ReadAct.message) q' := by
  obtain ⟨r, l, hrun, hmsgs, hstart, hnow | ⟨hidle, _⟩, hclose⟩ := h.link
  · rw [hnow] at hp hread hshut ⊢
    refine ⟨r, ⟨(l.side.complete p d).1, l.acts ++ (l.side.complete p d).2⟩, ?_, ?_, ?_, Or.inl hread, fun hc => ?_⟩
    · rw [Run.run_append, hrun]
      simp only [Option.bind_some, Run.run, ReadLink.step_eq hp hd]
    · rw [hmsgs, ReadLink.pushed, ReadLink.pushed, List.filterMap_append]
    · rw [hid]
      exact hstart.imp_right (And.imp_right fun hs => hshut (Or.inl hs))
    · rcases List.mem_append.mp hc with hc | hc
      · exact hshut (Or.inl (hclose hc))
      · exact hshut (Or.inr hc)
  · rw [hp] at hidle
    cases hidle

/-- A read fails. -/
theorem Reading.fail {ds : List Bytes} {msgs : List MessageFormat} {q q' : Session} (h : Reading ds msgs q)
    (hread : q'.read.pending = none) (hid : q'.id = q.id) (hshut : q'.shut = true) : Reading ds msgs q' := by
  obtain ⟨r, l, hrun, hmsgs, hstart, _, _⟩ := h.link
  refine ⟨r, l, hrun, hmsgs, ?_, Or.inr ⟨hread, hshut⟩, fun _ => hshut⟩
  rw [hid]
  exact hstart.imp_right (And.imp_right fun _ => hshut)

/-- **What such a session has queued**, and where it stands. -/
theorem Reading.frames {ds : List Bytes} {msgs : List MessageFormat} {q : Session} (h : Reading ds msgs q) :
    List.Forall₂ (Delivered q.id) (deliverable (parseFrames ds.flatten).1) msgs ∧
    ((parseFrames ds.flatten).2 = .badLength → q.shut = true) ∧
    (q.shut = false → q.read.pending ≠ none ∧
      ((parseFrames ds.flatten).2 = .inHeader [] ∨ (parseFrames ds.flatten).2 = .inBody [])) := by
  obtain ⟨r, l, hrun, rfl, hstart | ⟨hidle, hshut⟩, hnow, hclose⟩ := h.link
  · obtain ⟨hall, hbad, rest, hrest, hstop⟩ := ReadLink.run_refines hstart hrun
    refine ⟨hall, fun hstopped => hclose (hbad.mpr hstopped), fun hopen => ?_⟩
    have hside : q.read = l.side := hnow.resolve_right fun ⟨_, hs⟩ => Bool.false_ne_true (hopen.symm.trans hs)
    rw [hside]
    cases hstopped : (parseFrames ds.flatten).2 with
    | inHeader left =>
        rw [hstopped] at hstop
        obtain ⟨⟨hp, _⟩, hleft⟩ := hstop
        rw [hp, ← hleft, hrest]
        exact ⟨Option.some_ne_none _, Or.inl rfl⟩
    | inBody left =>
        rw [hstopped] at hstop
        obtain ⟨hp, hleft⟩ := hstop
        rw [← hleft, hrest]
        exact ⟨hp, Or.inr rfl⟩
    | badLength =>
        -- it would have closed
        have hs := hclose (hbad.mpr hstopped)
        rw [hopen] at hs
        cases hs
  · -- a refused session reads nothing
    cases ds with
    | nil =>
        cases hrun
        have hnothing : parseFrames ([] : List Bytes).flatten = ([], .inHeader []) := parseFrames_starved (by decide)
        rw [hnothing]
        refine ⟨.nil, fun hstopped => (nomatch hstopped), fun hopen => ?_⟩
        rw [hopen] at hshut
        cases hshut
    | cons d ds =>
        obtain ⟨u, hu, _⟩ := Option.bind_eq_some_iff.mp hrun
        simp [ReadLink.step, hidle] at hu

/-- What is known of session `x` once the pieces `ds` were read on it. -/
structure Heard (x : SessPtr) (ds : List Bytes) (w : World) : Prop where
  present : ∀ q : Session, w.sessions[x]? = some q → Reading ds (w.queuedOn x) q
  absent  : w.sessions[x]? = none → ds = [] ∧ w.queuedOn x = []

section Heard

variable {connectCount : Int} {x y : SessPtr} {ds : List Bytes} {w w' : World}

theorem Heard.quiet (h : Heard x ds w) (hq : Quiet x w w') : Heard x ds w' := by
  cases hx : w.sessions[x]? with
  | none =>
      obtain ⟨hds, hqueued⟩ := h.absent hx
      have hx' := hq.absent hx
      refine ⟨fun q' hq' => ?_, fun _ => ⟨hds, hq.queued.trans hqueued⟩⟩
      rw [hx'] at hq'
      cases hq'
  | some q =>
      obtain ⟨q', hx', hread, hid, hshut⟩ := hq.session q hx
      refine ⟨fun q'' hx'' => ?_, fun hnone => ?_⟩
      · rw [hx'] at hx''
        cases hx''
        rw [hq.queued]
        exact (h.present q hx).quiet hread hid hshut
      · rw [hx'] at hnone
        cases hnone

/-- A session that is brought up has read nothing yet; the others go on. -/
theorem Heard.bringUp (h : Heard x ds w) (up : BringUp) (address : Bytes) (port : Nat) :
    Heard x ds (w.bringUp connectCount up address port) := by
  refine ⟨fun q hx => ?_, fun hnone => ?_⟩
  · rcases sessions_bringUp_cases hx with hold | ⟨hlast, rfl⟩
    · exact h.present q hold
    · have hnone : w.sessions[x]? = none := List.getElem?_eq_none_iff.mpr (Nat.le_of_eq hlast.symm)
      obtain ⟨rfl, hqueued⟩ := h.absent hnone
      have hsame : (w.bringUp connectCount up address port).queuedOn x = [] := hqueued
      rw [hsame]
      have hspec := up.built_spec connectCount w.sessions.length address port .new w.registries
      refine ⟨_, _, rfl, rfl, ?_, Or.inl rfl, fun hc => (List.not_mem_nil hc).elim⟩
      exact hspec.imp (fun ho => ho.boundary) (fun hr => ⟨hr.idle, hr.shut⟩)
  · apply h.absent
    by_contra hsome
    obtain ⟨q, hq⟩ := Option.ne_none_iff_exists'.mp hsome
    rw [sessions_bringUp_old hq] at hnone
    cases hnone

/-- A read handler of another session runs. -/
theorem Heard.other (h : Heard x ds w) {s s' : Session} (hy : w.sessions[y]? = some s) (hyx : y ≠ x)
    (as : List ReadAct) : Heard x ds ((w.advance y s' []).carryOut y as) := by
  have hadvance : Quiet x w (w.advance y s' []) :=
    quiet_set hy rfl (fun heq => (hyx heq).elim) (by simp [advance, queuedOn])
  exact h.quiet (hadvance.trans (quiet_carryOut hyx _ as))

/-- A read handler of the session itself runs: it leaves `side`, and asks for `as`. -/
theorem Heard.own {s : Session} (hx : w.sessions[x]? = some s) (side : ReadSide) (as : List ReadAct)
    {ds' : List Bytes}
    (hreads : ∀ q' : Session, q'.read = side → q'.id = s.id → (s.shut = true ∨ ReadAct.close ∈ as → q'.shut = true) →
      Reading ds' (w.queuedOn x ++ as.filterMap ReadAct.message) q') :
    Heard x ds' ((w.advance x { s with read := side } []).carryOut x as) := by
  have hx' : (w.advance x { s with read := side } []).sessions[x]? = some { s with read := side } :=
    List.getElem?_set_self (List.getElem?_eq_some_iff.mp hx).1
  have hsame : (w.advance x { s with read := side } []).queuedOn x = w.queuedOn x := by simp [advance, queuedOn]
  obtain ⟨hqueued, q', hq', hread, hid, hshut⟩ := carryOut_spec hx' as
  refine ⟨fun q hq => ?_, fun hnone => ?_⟩
  · rw [hq'] at hq
    cases hq
    rw [hqueued, hsame]
    exact hreads q' hread hid hshut
  · rw [hq'] at hnone
    cases hnone

/-- **One event.** A session goes on reading by its own completed reads, and by nothing else. -/
theorem Heard.step (h : Heard x ds w) {e : Event} (hs : World.step connectCount w e = some w') :
    Heard x (ds ++ e.bytesOn x) w' := by
  have hsilent : Heard x ds w' → e.bytesOn x = [] → Heard x (ds ++ e.bytesOn x) w' := by
    intro h' hnone
    rw [hnone, List.append_nil]
    exact h'
  cases e with
  | accept address port =>
      cases hs
      exact hsilent (h.bringUp _ _ _) rfl
  | connect error address port =>
      cases hs
      exact hsilent (h.bringUp _ _ _) rfl
  | connectSlot error host i address port =>
      cases hs
      exact hsilent (h.bringUp _ _ _) rfl
  | write y m hd body =>
      simp only [World.step] at hs
      split at hs
      · cases hs
      · next s hy =>
          cases hs
          exact hsilent (h.quiet (quiet_set hy rfl (fun _ => ⟨rfl, rfl, id⟩) (by simp [advance, queuedOn]))) rfl
  | written y i error =>
      simp only [World.step] at hs
      split at hs
      · cases hs
      · next s hy =>
          split at hs
          · cases hs
            have hadvance : Quiet x w (w.advance y { s with
                write := (s.write.handleWrite error).1
                writing := s.writing.eraseIdx i ++ (s.write.handleWrite error).2.1 } []) :=
              quiet_set hy rfl (fun _ => ⟨rfl, rfl, id⟩) (by simp [advance, queuedOn])
            refine hsilent ?_ rfl
            split
            · exact h.quiet (hadvance.trans (quiet_close x y _))
            · exact h.quiet hadvance
          · cases hs
  | received y d =>
      simp only [World.step] at hs
      split at hs
      · cases hs
      · next s hy =>
          split at hs
          · cases hs
          · next p hp =>
              split at hs
              · next hd =>
                  cases hs
                  by_cases hyx : y = x
                  · subst hyx
                    have hmine : (Event.received y d).bytesOn y = [d] := if_pos rfl
                    rw [hmine]
                    exact Heard.own hy _ _ fun q' hread hid hshut => (h.present s hy).complete hp hd hread hid hshut
                  · exact hsilent (h.other hy hyx _) (if_neg hyx)
              · cases hs
  | readError y =>
      simp only [World.step] at hs
      split at hs
      · cases hs
      · next s hy =>
          split at hs
          · cases hs
          · next p hp =>
              cases hs
              refine hsilent ?_ rfl
              rw [ReadSide.fail_eq]
              by_cases hyx : y = x
              · subst hyx
                refine Heard.own hy _ _ fun q' hread hid hshut => ?_
                rw [List.filterMap_cons_none rfl, List.filterMap_nil, List.append_nil]
                exact (h.present s hy).fail (congrArg ReadSide.pending hread) hid (hshut (Or.inr List.mem_cons_self))
              · exact h.other hy hyx _

end Heard

end World

namespace Serving

variable {proto : Proto} {connectCount : Int} {taskQueueMax : Nat} {s s' : Serving}

/-- The bytes of a completed read of session `x`. -/
def Event.bytesOn (x : SessPtr) : Event → List Bytes
  | .net e => e.bytesOn x
  | _ => []

/-- Nothing a worker does reads, or queues. -/
theorem heard_step {x : SessPtr} {ds : List Bytes} (h : World.Heard x ds s.world) {e : Event}
    (hs : step proto connectCount taskQueueMax s e = some s') : World.Heard x (ds ++ e.bytesOn x) s'.world := by
  have hsilent : World.Quiet x s.world s'.world → World.Heard x (ds ++ []) s'.world := by
    intro hquiet
    rw [List.append_nil]
    exact h.quiet hquiet
  cases e with
  | net e =>
      simp only [step] at hs
      split at hs
      · cases hs
      · next w hw =>
          cases hs
          exact h.step hw
  | pop j call up =>
      have hworld := (pop_quiet hs).1
      apply hsilent
      rw [hworld]
      exact World.quiet_refl x _
  | look j rand =>
      simp only [step] at hs
      split at hs
      · -- a lookup may repair the registry, and that is all
        split at hs
        · cases hs
          exact hsilent ⟨fun q hx => ⟨q, hx, rfl, rfl, id⟩, id, rfl⟩
        · cases hs
          exact hsilent ⟨fun q hx => ⟨q, hx, rfl, rfl, id⟩, id, rfl⟩
      · cases hs
  | write j =>
      simp only [step] at hs
      split at hs
      · next caches origin ds' d y hj =>
          split at hs
          · cases hs
          · next q hy =>
              cases hs
              exact hsilent (World.quiet_set hy rfl (fun _ => ⟨rfl, rfl, id⟩) (by simp [World.advance, World.queuedOn]))
      · cases hs

theorem heard_run {caches : List WorkerCaches} {es : List Event}
    (hrun : Run.run (step proto connectCount taskQueueMax) (start caches) es = some s) (x : SessPtr) :
    World.Heard x (es.flatMap (Event.bytesOn x)) s.world := by
  refine Run.run_induction (step proto connectCount taskQueueMax)
    (P := fun es s => World.Heard x (es.flatMap (Event.bytesOn x)) s.world) ?_ ?_ hrun
  · exact ⟨fun q hx => (List.not_mem_nil (List.mem_of_getElem? hx)).elim, fun _ => ⟨rfl, rfl⟩⟩
  · intro es t e u _ ht hu
    rw [List.flatMap_append, List.flatMap_singleton]
    exact heard_step ht hu

/-- **What arrives is queued.** After any run of the server, whatever else went on: the bytes read on a session,
    taken together, are the frames of the reference parser, and the session has handed over those frames, one by
    one and in order, keepalives left out, each under its own id. If the parser met a bad length, the session is
    closed. While it is open, it has a read outstanding, and waits for the first byte of a header or of a body. -/
theorem what_arrives_is_queued (proto : Proto) (connectCount : Int) (taskQueueMax : Nat) (caches : List WorkerCaches)
    (es : List Event) (s : Serving) (x : SessPtr) (q : Session)
    (hrun : Run.run (step proto connectCount taskQueueMax) (start caches) es = some s)
    (hx : s.world.sessions[x]? = some q) :
    List.Forall₂ (Delivered q.id) (deliverable (parseFrames (es.flatMap (Event.bytesOn x)).flatten).1)
      (s.world.queuedOn x) ∧
    ((parseFrames (es.flatMap (Event.bytesOn x)).flatten).2 = .badLength → q.shut = true) ∧
    (q.shut = false → q.read.pending ≠ none ∧
      ((parseFrames (es.flatMap (Event.bytesOn x)).flatten).2 = .inHeader [] ∨
        (parseFrames (es.flatMap (Event.bytesOn x)).flatten).2 = .inBody [])) :=
  ((heard_run hrun x).present q hx).frames

/-- The two requests, and the only worker's replies to them. -/
theorem what_arrives_is_queued_two : ∃ s q,
    Run.run (step Proto.wire 1 10) (start oneWorker) (twoRequests ++ twoAnswers) = some s ∧
      s.world.sessions[0]? = some q ∧
      List.Forall₂ (Delivered q.id) [frameOf (⟨0, 0, 200⟩, publicBytes), frameOf (⟨0, 0, 200⟩, [])]
        (s.world.queuedOn 0) := by
  obtain ⟨s, hs, hsettled, _⟩ := twoAnswers_run
  obtain ⟨q, hq, _⟩ : Reaches s.world 0 emptyReply :=
    (inv_run hs).routed ⟨1, emptyReply, some 0⟩ (by simp [hsettled]) 0 rfl
  have hall := (what_arrives_is_queued Proto.wire 1 10 _ _ s 0 q hs hq).1
  have hbytes : ((twoRequests ++ twoAnswers).flatMap (Event.bytesOn 0)).flatten
      = ([(⟨0, 0, 200⟩, publicBytes), (⟨0, 0, 200⟩, [])].map wireOf).flatten := by decide
  rw [hbytes, parseFrames_frames (by decide)] at hall
  exact ⟨s, q, hs, hq, hall⟩

end Serving

end BServer
