import Parley.Proofs.Stage

/-!
This module contains that a run and its course come to the same end. Outside of any handler a
request is first decided and then delivers what it has queued; a request of a handler leaves that to
the delivery it is a part of.
-/

namespace Parley

namespace Run

open Session

variable {S E α : Type} [Engine S E] {s : Session S E}

def settle (bound : Nat) : Run S E Unit := do
  if (← get).runner.pending.isEmpty then
    return
  modify (·.dispatch true)
  drain bound
  modify (·.dispatch false)

section Emit

variable {bound : Nat} {drained : Run S E Unit} (event : Event)

omit [Engine S E] in
theorem emitWith_inside (hd : s.runner.dispatching = true)
    : outcome (emitWith drained event) s = (some (), s.enqueue event) := by
  simp [emitWith, hd]

theorem emitWith_outside (hd : s.runner.dispatching = false)
    : outcome (emitWith (drain bound) event) s = outcome (settle bound) (s.enqueue event) := by
  simp [emitWith, settle, dispatch, hd]

end Emit

theorem settle_settled {bound : Nat} (hsettled : s.runner.pending = [])
    : outcome (settle bound) s = (some (), s) := by
  simp [settle, hsettled]

section Decided

variable {R : E → E → Prop} {m : (Event → Run S E Unit) → Run S E α}

theorem Decided.inside (h : Decided R s m) (drained : Run S E Unit)
    (hd : s.runner.dispatching = true)
    : outcome (m (emitWith drained)) s = outcome (m queue) s := by
  obtain ⟨begun, event, decided, reply, honly, hdecides, hm⟩ := h
  rw [hm, hm, outcome_announce_queue]
  cases event with
  | none => rfl
  | some event =>
    have hbegun : begun.runner.dispatching = true := by
      rw [honly.runner]
      exact hd
    have hdecided := hdecides.frame.1.trans hbegun
    simp [announce, emitWith_inside event hdecided, enqueue?]

theorem Decided.outside (h : Decided R s m) (bound : Nat) (hd : s.runner.dispatching = false)
    (hsettled : s.runner.pending = [])
    : outcome (m (emitWith (drain bound))) s
        =
      outcome (do let reply ← m queue; settle bound; return reply) s := by
  obtain ⟨begun, event, decided, reply, honly, hdecides, hm⟩ := h
  have hbegun : begun.runner.dispatching = false ∧ begun.runner.pending = [] := by
    rw [honly.runner]
    exact ⟨hd, hsettled⟩
  obtain ⟨hdispatching, hpending⟩ := hdecides.frame
  rw [outcome_bind, hm, hm, outcome_announce_queue]
  cases event with
  | none =>
    have hnone : decided.runner.pending = [] := by
      rcases hpending with heq | heq
      . exact heq.trans hbegun.2
      . exact heq
    simp [announce, enqueue?, settle_settled hnone]
  | some event =>
    simp [announce, enqueue?, emitWith_outside event (hdispatching.trans hbegun.1)]

end Decided

theorem operation_inside (drained : Run S E Unit) (request : Operation S E)
    (hd : s.runner.dispatching = true)
    : outcome (operation (emitWith drained) request) s = s.perform request := by
  rw [perform_eq]
  rcases isPlain_cases request with hplain | rfl | ⟨story, rfl⟩
  . exact (decided_plain hplain).inside drained hd
  . have hd' : (s.record .stopping).runner.dispatching = true := hd
    simp only [operation, stop, outcome_bind, outcome_get]
    split
    . simp [emitWith_inside .stopped hd', queue]
    . rfl
  . have hd' : (s.adopt story).runner.dispatching = true := hd
    have hd'' : ((s.adopt story).enqueue .started).runner.dispatching = true := hd
    have hadvance := (tried_tryAdvance Engine.respects_true).reporting Engine.respects_true
      (s := (s.adopt story).enqueue .started)
    simp only [operation, start, outcome_bind, outcome_get]
    split
    . rfl
    . simp only [outcome_bind, outcome_set, emitWith_inside .started hd', queue, outcome_modify]
      exact hadvance.inside drained hd''

end Run

/--
Whether a walk comes to the same end as a computation does. It may have a result, or be cut off.
-/
def Traces {S E α : Type} [Engine S E] (m : Run S E α) (walk : Walk S E α) (c : Course S E)
    (post : α → Course S E → Prop) (cut : Course S E → Prop) : Prop :=
  match outcome walk c with
  | (some a, c') => outcome m c.now = (some a, c'.now) ∧ post a c'
  | (none, c') => outcome m c.now = (none, c'.now) ∧ cut c'

section Traces

variable {S E α β : Type} [Engine S E] {c : Course S E} {cut : Course S E → Prop}

theorem traces_pure {post : α → Course S E → Prop} (a : α) (h : post a c)
    : Traces (pure a) (pure a) c post cut := by
  exact ⟨rfl, h⟩

theorem traces_bind {m : Run S E α} {walk : Walk S E α} {f : α → Run S E β} {g : α → Walk S E β}
    {post : β → Course S E → Prop}
    (h : Traces m walk c (fun a c' => Traces (f a) (g a) c' post cut) cut)
    : Traces (m >>= f) (walk >>= g) c post cut := by
  unfold Traces at h ⊢
  rw [outcome_bind, outcome_bind]
  split at h
  . next hwalk =>
    rw [hwalk, h.1]
    exact h.2
  . next hwalk =>
    rw [hwalk, h.1]
    exact ⟨rfl, h.2⟩

theorem Traces.mono {m : Run S E α} {walk : Walk S E α} {post post' : α → Course S E → Prop}
    (h : Traces m walk c post cut) (hpost : ∀ a c', post a c' → post' a c')
    : Traces m walk c post' cut := by
  unfold Traces at h ⊢
  split at h
  . exact ⟨h.1, hpost _ _ h.2⟩
  . exact h

theorem Traces.congr {m m' : Run S E α} {walk walk' : Walk S E α} {post : α → Course S E → Prop}
    (h : Traces m' walk' c post cut) (hm : outcome m c.now = outcome m' c.now)
    (hwalk : outcome walk c = outcome walk' c) : Traces m walk c post cut := by
  unfold Traces at h ⊢
  rw [hm, hwalk]
  exact h

theorem traces_move {m : Run S E Unit} {move : Move S E} {post : Unit → Course S E → Prop}
    (hm : outcome m c.now = (some (), c.now.move move)) (h : post () (c.push move))
    : Traces m (Walk.move move) c post cut := by
  exact ⟨hm, h⟩

theorem traces_look {post : β → Course S E → Prop} {f : Session S E → Run S E β}
    {g : Session S E → Walk S E β} (h : Traces (f c.now) (g c.now) c post cut)
    : Traces (get >>= f) (Walk.look >>= g) c post cut := by
  exact traces_bind ⟨rfl, h⟩

theorem traces_perform {request : Operation S E} {m : Run S E request.Reply}
    {post : request.Reply → Course S E → Prop} (hm : outcome m c.now = c.now.perform request)
    (h : ∀ reply, post reply (c.push (.perform request)))
    : Traces m (Walk.perform request) c post cut := by
  obtain ⟨reply, s', hperform, _⟩ := Session.changes_perform (s := c.now) Engine.respects_true
    (Run.staysWithin_true request)
  have hwalk : outcome (Walk.perform request) c = (some reply, c.push (.perform request)) := by
    simp [Walk.perform, Walk.look, Walk.move, hperform]
  unfold Traces
  rw [hwalk]
  refine ⟨?_, h reply⟩
  rw [hm, Course.now_push, Session.move, hperform]

theorem traces_subscribe {emit : Event → Run S E Unit}
    {request : (operation : Operation S E) → Walk S E operation.Reply} {kind : EventKind}
    {handler : Handler S E} {next : Token → Program S E} {post : Unit → Course S E → Prop}
    (h : Traces (Run.program emit (next (c.now.subscribe kind handler).1))
        (Walk.program request (next (c.now.subscribe kind handler).1))
        (c.push (.subscribe kind handler)) post cut)
    : Traces (Run.program emit (.subscribe kind handler next))
        (Walk.program request (.subscribe kind handler next)) c post cut := by
  exact h

end Traces

section Stages

open Run

variable {S E : Type} [Engine S E] {c : Course S E} {cut : Course S E → Prop} {stopping : Bool}
  {event : Event}

theorem traces_handler {drained : Run S E Unit} {token : Token}
    {rest : List (Token × Handler S E)} (p : Program S E)
    (h : Staged (.working stopping event token rest) c)
    : Traces (program (emitWith drained) p) (Walk.program Walk.perform p) c
        (fun _ => Staged (.working stopping event token rest)) cut := by
  induction p generalizing c with
  | done => exact traces_pure () h
  | perform request next ih =>
    have hdispatching := h.describes.dispatching
    apply traces_bind
    apply traces_perform (operation_inside drained request hdispatching)
    intro reply
    exact ih reply (h.push (.request request))
  | subscribe kind handler next _ ih =>
    apply traces_subscribe
    exact ih _ (h.push (.enroll kind handler))

theorem traces_deliver {drained : Run S E Unit} {handlers : List (Token × Handler S E)}
    (h : Staged (.delivering stopping event handlers) c)
    : Traces (deliver (program (emitWith drained)) event handlers) (Walk.deliver event handlers) c
        (fun _ => Staged (.draining stopping)) cut := by
  induction handlers generalizing c with
  | nil => exact traces_pure () h.delivered
  | cons entry rest ih =>
    obtain ⟨token, handler⟩ := entry
    unfold deliver Walk.deliver
    apply traces_bind
    apply traces_move rfl
    apply traces_bind
    apply (traces_handler (handler event) (h.push .enter)).mono
    intro _ c h
    apply traces_bind
    apply traces_move rfl
    apply traces_look
    have hregistry : (c.push (.leave token)).now.runner.registry = c.now.runner.registry := rfl
    have hleave := h.push .leave
    rw [hregistry]
    split
    . next hempty =>
      simp only [hempty, ↓reduceIte] at hleave
      exact traces_pure () hleave.delivered
    . next hnonempty =>
      simp only [hnonempty] at hleave
      exact ih hleave

theorem traces_drain (bound : Nat) (h : Staged (.draining stopping) c)
    : Traces (drain bound) (Walk.drain bound) c
        (fun _ c' => Staged (.draining stopping) c' ∧ c'.now.runner.pending = [])
        (fun c' => ∃ stopping, Staged (.draining stopping) c') := by
  induction bound generalizing c with
  | zero => exact ⟨rfl, stopping, h⟩
  | succ bound ih =>
    unfold drain Walk.drain
    apply traces_look
    cases hpending : c.now.runner.pending with
    | nil => exact traces_pure () ⟨h, hpending⟩
    | cons event rest =>
      apply traces_bind
      apply traces_move
      . rw [outcome_set, Session.move, Session.take_eq hpending]
      . apply traces_bind
        apply (traces_deliver (h.push (.take hpending))).mono
        intro _ c h
        exact ih h

theorem traces_settle (bound : Nat) (h : Staged (.outside stopping) c)
    : Traces (settle bound) (Walk.settle bound) c
        (fun _ c' => Staged (.outside stopping) c' ∧ c'.now.runner.pending = [])
        (fun c' => ∃ stopping, Staged (.draining stopping) c') := by
  unfold settle Walk.settle
  apply traces_look
  split
  . next hpending => exact traces_pure () ⟨h, by simpa using hpending⟩
  . next hpending =>
    apply traces_bind
    apply traces_move rfl
    apply traces_bind
    apply (traces_drain bound (h.push (.dispatch (by simpa using hpending)))).mono
    rintro _ c ⟨h, hpending⟩
    apply traces_move rfl
    exact ⟨h.push (.settle hpending), hpending⟩

/--
Whether a run waits for the next request from outside of any handler.
-/
def AtRest (c : Course S E) : Prop :=
  Staged (.outside false) c ∧ c.now.runner.pending = []

def Cut (c : Course S E) : Prop :=
  ∃ stopping, Staged (.draining stopping) c

theorem AtRest.dispatching (h : AtRest c) : c.now.runner.dispatching = false := by
  obtain ⟨_, hp⟩ := h.1.describes
  exact hp.dispatching

theorem request_plain (bound : Nat) {request : Operation S E} (hplain : isPlain request = true)
    : outcome (Walk.request bound request) c
        =
      outcome (do let reply ← Walk.perform request; Walk.settle bound; return reply) c := by
  cases request with
  | stop => simp [isPlain] at hplain
  | start story autoAdvance =>
    cases autoAdvance with
    | false => rfl
    | true => simp [isPlain] at hplain
  | _ => rfl

theorem traces_plain (bound : Nat) (request : Operation S E) (hplain : isPlain request = true)
    (h : AtRest c)
    : Traces (operation (emitWith (drain bound)) request) (Walk.request bound request) c
        (fun _ => AtRest) Cut := by
  have houtside := (decided_plain hplain).outside bound h.dispatching h.2
  refine Traces.congr ?_ houtside (request_plain bound hplain)
  apply traces_bind
  apply traces_perform (Session.perform_eq request).symm
  intro reply
  apply traces_bind
  apply (traces_settle bound (h.1.push (.perform h.2 request hplain))).mono
  intro _ c h
  exact traces_pure reply h

theorem traces_stop (bound : Nat) (h : AtRest c)
    : Traces (operation (emitWith (drain bound)) .stop) (Walk.request bound .stop) c
        (fun _ => AtRest) Cut := by
  unfold operation stop Walk.request
  apply traces_look
  split
  . next hpresent =>
    have hd : (c.now.record .stopping).runner.dispatching = false := h.dispatching
    have houtside : outcome (do
          modify (·.record .stopping)
          emitWith (drain bound) .stopped
          modify (·.release)) c.now
        = outcome (do
          modify (·.announce)
          settle bound
          modify (·.release)) c.now := by
      simp only [outcome_bind, outcome_modify, emitWith_outside .stopped hd]
      rfl
    refine Traces.congr ?_ houtside rfl
    apply traces_bind
    apply traces_move rfl
    apply traces_bind
    apply (traces_settle bound (h.1.push (.announce h.2 hpresent))).mono
    rintro _ c ⟨hstopping, hsettled⟩
    apply traces_move rfl
    exact ⟨hstopping.push (.release hsettled), hsettled⟩
  . exact traces_pure () h

theorem traces_start (bound : Nat) (story : E) (h : AtRest c)
    : Traces (operation (emitWith (drain bound)) (.start story true))
        (Walk.request bound (.start story true)) c (fun _ => AtRest) Cut := by
  have hwalk : outcome (Walk.request bound (.start story true)) c
      = outcome (do
          Walk.request bound (.start story false)
          if c.now.runner.story.isNone then
            Walk.request bound .advance) c := by
    simp [Walk.request, Walk.look]
  refine Traces.congr ?_ (start_advance _ story) hwalk
  apply traces_bind
  apply (traces_plain bound (.start story false) rfl h).mono
  intro _ c' h
  split
  . exact traces_plain bound .advance rfl h
  . exact traces_pure () h

theorem traces_request (bound : Nat) (request : Operation S E) (h : AtRest c)
    : Traces (operation (emitWith (drain bound)) request) (Walk.request bound request) c
        (fun _ => AtRest) Cut := by
  rcases isPlain_cases request with hplain | rfl | ⟨story, rfl⟩
  . exact traces_plain bound request hplain h
  . exact traces_stop bound h
  . exact traces_start bound story h

theorem AtRest.walk {bound : Nat} {request : Operation S E}
    {reply : request.Reply} {c' : Course S E} (h : AtRest c)
    (hdone : outcome (Walk.request bound request) c = (some reply, c'))
    : c.now.request bound request = (some reply, c'.now) ∧ AtRest c' := by
  have htraces := traces_request bound request h
  unfold Traces at htraces
  rw [hdone] at htraces
  exact htraces

theorem AtRest.request {bound : Nat} {operation : Operation S E} {reply : operation.Reply}
    {s : Session S E} (h : AtRest c) (hdone : c.now.request bound operation = (some reply, s))
    : ∃ c', AtRest c' ∧ c'.now = s := by
  have htraces := traces_request bound operation h
  have hdone : outcome (Run.operation (emitWith (drain bound)) operation) c.now
      = (some reply, s) := hdone
  unfold Traces at htraces
  split at htraces
  . next _ c' _ =>
    obtain ⟨hsame, hrests⟩ := htraces
    rw [hdone, Prod.mk.injEq] at hsame
    exact ⟨c', hrests, hsame.2.symm⟩
  . next =>
    rw [hdone, Prod.mk.injEq] at htraces
    exact absurd htraces.1.1 (by simp)

theorem traces_host (bound : Nat) (host : Program S E) (h : AtRest c)
    : Traces (program (emitWith (drain bound)) host) (Walk.program (Walk.request bound) host) c
        (fun _ => AtRest) Cut := by
  induction host generalizing c with
  | done => exact traces_pure () h
  | perform request next ih =>
    apply traces_bind
    apply (traces_request bound request h).mono
    intro reply c h
    exact ih reply h
  | subscribe kind handler next _ ih =>
    apply traces_subscribe
    exact ih _ ⟨h.1.push (.subscribe h.2 kind handler), h.2⟩

end Stages

namespace Session

variable {S E : Type} [Engine S E]

variable (options : LoadOptions) (memory : S) (bound : Nat) (host : Program S E)

theorem staged_course
    : let c := (Session.new options memory).course bound host
      c.now = ((Session.new options memory).run bound host).2 ∧
        (∃ stage, Staged stage c) ∧
        (((Session.new options memory).run bound host).1.isSome = true → AtRest c) := by
  have htraces := traces_host bound host (c := ⟨Session.new options memory, []⟩)
    ⟨.begin options memory, rfl⟩
  have hcourse : (Session.new options memory).course bound host
      = (outcome (Walk.program (Walk.request bound) host) ⟨Session.new options memory, []⟩).2 := rfl
  have hrun : (Session.new options memory).run bound host
      = outcome (Run.program (Run.emitWith (Run.drain bound)) host)
          (Course.mk (Session.new options memory) []).now := rfl
  rw [hcourse, hrun]
  unfold Traces at htraces
  split at htraces
  . next heq =>
    obtain ⟨hsame, hrests⟩ := htraces
    rw [heq, hsame]
    exact ⟨rfl, ⟨_, hrests.1⟩, fun _ => hrests⟩
  . next heq =>
    obtain ⟨hsame, stopping, hcut⟩ := htraces
    rw [heq, hsame]
    exact ⟨rfl, ⟨_, hcut⟩, by simp⟩

end Session
end Parley
