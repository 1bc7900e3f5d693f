import Mathlib.Order.Filter.AtTopBot.Basic
import Parley.Proofs.Bound
import Parley.Proofs.Player.Tape

/-!
This module contains what a command comes to, whatever the story makes of it: if lines do not follow
each other for ever, it is carried out or fails within every bound that is large enough, and no line
is asked for on the way.
-/

namespace Parley.Player

open Filter

variable {F : Type}

/--
Whether a line that is still to be read is a command, if there are choices enough.
-/
def Desk.Types (d : Desk F) (command : Command) : Prop :=
  ∃ line ∈ d.lines, ∃ count, Entry.ofLine count line.toList = .accepted command

namespace Direct

variable [FileSystem F] {E : Type} [Engine String E]

/--
The stories, with the files there are then, that can be reached from one by what is typed at a desk.
A choice may be taken in vain.
-/
inductive Reaches (d : Desk F) (story : E) : E → F → Prop where
  | start : Reaches d story story d.files
  | line {reached : E} {files : F} (h : Reaches d story reached files)
      (goes : Engine.canContinue reached = true)
      : Reaches d story (Engine.continueOne reached nowhere).2.1 files
  | choose {reached : E} {files : F} {index : Nat} (h : Reaches d story reached files)
      (typed : d.Types (.choose index)) (offered : index < (Engine.choices reached).length)
      : Reaches d story (Engine.choose reached index).2 files
  | reset {reached : E} {files : F} (h : Reaches d story reached files) (typed : d.Types .reset)
      : Reaches d story (Engine.reset reached nowhere).2.1 files
  | rewind {reached : E} {files : F} (h : Reaches d story reached files) (typed : d.Types .rewind)
      : Reaches d story (Engine.rewind reached).2 files
  | load {reached loaded : E} {files : F} {file content : String}
      (h : Reaches d story reached files) (typed : d.Types (.load file))
      (found : FileSystem.read files file = .ok content)
      (loads : Engine.load reached content = (.ok (), loaded)) : Reaches d story loaded files
  | save {reached : E} {files files' : F} {file content : String}
      (h : Reaches d story reached files) (typed : d.Types (.save file))
      (saves : Engine.save reached = .ok content)
      (writes : FileSystem.write files file content = (.ok (), files'))
        : Reaches d story reached files'

/--
Whether wherever a story can be brought by what is typed at a desk, its lines come to an end.
-/
def Pauses (d : Desk F) (story : E) : Prop :=
  ∀ reached files, Reaches d story reached files →
    ∃ lines failure behind, Segment reached lines failure behind

theorem Reaches.segment {d : Desk F} {story reached behind : E} {files : F} {lines : List Line}
    {failure : Option EngineError} (h : Reaches d story reached files)
    (hsegment : Segment reached lines failure behind) : Reaches d story behind files := by
  induction hsegment with
  | still => exact h
  | fails hgoes hfailed =>
    have hline := h.line hgoes
    rwa [hfailed] at hline
  | line hgoes htold _ ih =>
    have hline := h.line hgoes
    rw [htold] at hline
    exact ih hline

end Direct

/--
Whether something that is done at a taped desk ends in one way within every bound that is large
enough, with a result that satisfies `post`, or with a failure that satisfies `fails` and is none of
the bound.
-/
inductive Concludes {α : Type} (act : Nat → ExceptT Failure (StateM (Tape F)) α) (t : Tape F)
    (post : α → Tape F → Prop) (fails : Failure → Tape F → Prop) : Prop where
  | done {a : α} {ended : Tape F}
      (settles : ∀ᶠ bound in atTop, (act bound).run.run t = (.ok a, ended)) (holds : post a ended)
      : Concludes act t post fails
  | failed {failure : Failure} {ended : Tape F}
      (settles : ∀ᶠ bound in atTop, (act bound).run.run t = (.error failure, ended))
      (real : failure ≠ .endless) (holds : fails failure ended) : Concludes act t post fails

section Rules

variable {α β : Type} {t : Tape F} {fails : Failure → Tape F → Prop}

theorem concludes_pure {post : α → Tape F → Prop} {a : α} (h : post a t)
    : Concludes (fun _ => pure a) t post fails :=
  .done (.of_forall fun _ => rfl) h

theorem concludes_throw {post : α → Tape F → Prop} {failure : Failure} (hreal : failure ≠ .endless)
    (h : fails failure t) : Concludes (fun _ => throw failure) t post fails :=
  .failed (.of_forall fun _ => rfl) hreal h

theorem concludes_taping {post : α → Tape F → Prop} (act : StateM (Desk F) α) (note : α → Act)
    {a : α} {desk : Desk F} (hact : act.run t.desk = (a, desk))
    (h : post a ⟨desk, t.acts ++ [note a]⟩)
    : Concludes (fun _ => ExceptT.lift (Tape.taping act note)) t post fails := by
  refine .done (.of_forall fun _ => ?_) h
  change (Except.ok (act.run t.desk).1,
    (⟨(act.run t.desk).2, t.acts ++ [note (act.run t.desk).1]⟩ : Tape F)) = _
  rw [hact]

variable {x x' : Nat → ExceptT Failure (StateM (Tape F)) α}

theorem Concludes.bind {f : Nat → α → ExceptT Failure (StateM (Tape F)) β}
    {post : β → Tape F → Prop}
    (h : Concludes x t (fun a t' => Concludes (f · a) t' post fails) fails)
    : Concludes (fun bound => x bound >>= f bound) t post fails := by
  have hrun : ∀ bound, (x bound >>= f bound).run.run t =
      match (x bound).run.run t with
      | (.ok a, t') => (f bound a).run.run t'
      | (.error failure, t') => (.error failure, t') := by
    intro bound
    simp only [ExceptT.run_bind, StateT.run_bind]
    generalize (x bound).run.run t = ended
    obtain ⟨_ | _, _⟩ := ended
    . rfl
    . rfl
  cases h with
  | done hsettles hnext =>
    cases hnext with
    | done hsettles' hpost =>
      refine .done ?_ hpost
      filter_upwards [hsettles, hsettles'] with bound hx hf
      rw [hrun, hx]
      exact hf
    | failed hsettles' hreal hfails =>
      refine .failed ?_ hreal hfails
      filter_upwards [hsettles, hsettles'] with bound hx hf
      rw [hrun, hx]
      exact hf
  | failed hsettles hreal hfails =>
    refine .failed ?_ hreal hfails
    filter_upwards [hsettles] with bound hx
    rw [hrun, hx]

theorem Concludes.mono {post post' : α → Tape F → Prop} {fails' : Failure → Tape F → Prop}
    (h : Concludes x t post fails) (hpost : ∀ a t', post a t' → post' a t')
    (hfails : ∀ failure t', fails failure t' → fails' failure t')
    : Concludes x t post' fails' := by
  cases h with
  | done hsettles h => exact .done hsettles (hpost _ _ h)
  | failed hsettles hreal h => exact .failed hsettles hreal (hfails _ _ h)

theorem Concludes.imp {post post' : α → Tape F → Prop} (h : Concludes x t post fails)
    (hpost : ∀ a t', post a t' → post' a t') : Concludes x t post' fails := by
  apply h.mono hpost
  intro failure t' hfails
  exact hfails

theorem Concludes.map {f : α → β} {post : β → Tape F → Prop}
    (h : Concludes x t (fun a t' => post (f a) t') fails)
    : Concludes (fun bound => f <$> x bound) t post fails := by
  simp only [map_eq_pure_bind]
  apply Concludes.bind
  apply h.imp
  intro a t' hpost
  exact concludes_pure hpost

theorem Concludes.congr {post : α → Tape F → Prop} (h : Concludes x t post fails)
    (heq : ∀ᶠ bound in atTop, x' bound = x bound) : Concludes x' t post fails := by
  cases h with
  | done hsettles h =>
    refine .done ?_ h
    filter_upwards [hsettles, heq] with bound hx heq
    rw [heq, hx]
  | failed hsettles hreal h =>
    refine .failed ?_ hreal h
    filter_upwards [hsettles, heq] with bound hx heq
    rw [heq, hx]

end Rules

/--
What goes over a terminal before the next question, when a line was read as an entry. Whatever it
is, it is no question.
-/
inductive Replies : Entry → List Act → Prop where
  | blank : Replies .blank []
  | refused (refusal : Refusal)
      : Replies (.refused refusal) [.complained ("<" ++ refusal.message ++ ">\n")]
  | choose (index : Nat) (lines : List Line)
      : Replies (.accepted (.choose index)) [.printed (Direct.textOf lines)]
  | exit : Replies (.accepted .exit) []
  | help : Replies (.accepted .help) [.printed helpText]
  | load (file : String) (lines : List Line)
      : Replies (.accepted (.load file))
          [.opened file, .printed "Ok.\n", .printed (Direct.textOf lines)]
  /-- The file cannot be read, or its content is no state of the story. -/
  | notLoaded (file : String) : Replies (.accepted (.load file)) [.opened file]
  | save (file content : String)
      : Replies (.accepted (.save file)) [.wrote file content, .printed "Ok.\n"]
  | notWritten (file content : String) : Replies (.accepted (.save file)) [.wrote file content]
  | notSaved (file : String) : Replies (.accepted (.save file)) []
  | reset (lines : List Line) : Replies (.accepted .reset) [.printed (Direct.textOf lines)]
  | rewind (lines : List Line) : Replies (.accepted .rewind) [.printed (Direct.textOf lines)]

theorem Replies.countP_eq_zero {entry : Entry} {reply : List Act} (h : Replies entry reply)
    : reply.countP Act.isQuestion = 0 := by
  cases h <;> rfl

def Answered (entry : Entry) (t t' : Tape F) : Prop :=
  t'.desk.lines = t.desk.lines ∧ ∃ reply, Replies entry reply ∧ t'.acts = t.acts ++ reply

section Command

variable [FileSystem F] {E : Type} [Engine String E] {P : E → Prop} {d : Desk F} {story : E}
  {s : Session String E} {t : Tape F} {fails : Failure → Tape F → Prop}

def Tape.print (t : Tape F) (text : String) : Tape F :=
  ⟨{ t.desk with output := t.desk.output ++ text }, t.acts ++ [.printed text]⟩

theorem concludes_print {post : Unit → Tape F → Prop} {text : String} (h : post () (t.print text))
    : Concludes (fun _ => Terminal.print text) t post fails :=
  concludes_taping (Terminal.print text) (fun _ => .printed text) rfl h

theorem concludes_readFile {post : Except String String → Tape F → Prop} {file : String}
    (h : post (FileSystem.read t.desk.files file) ⟨t.desk, t.acts ++ [.opened file]⟩)
    : Concludes (fun _ => Terminal.readFile file) t post fails :=
  concludes_taping (Terminal.readFile file) (fun _ => .opened file) rfl h

theorem concludes_contentOf {post : String → Tape F → Prop} {file : String}
    (hfound : ∀ content, FileSystem.read t.desk.files file = .ok content →
      post content ⟨t.desk, t.acts ++ [.opened file]⟩)
    (hmissing : ∀ reason, FileSystem.read t.desk.files file = .error reason →
      ∀ failure, fails failure ⟨t.desk, t.acts ++ [.opened file]⟩)
    : Concludes (fun _ => contentOf file) t post fails := by
  apply Concludes.bind
  apply concludes_readFile
  cases hcontent : FileSystem.read t.desk.files file with
  | error reason => exact concludes_throw (by simp) (hmissing reason hcontent _)
  | ok content => exact concludes_pure (hfound content hcontent)

theorem concludes_writeFile {post : Except String Unit → Tape F → Prop} {file content : String}
    {result : Except String Unit} {files : F}
    (hwrite : FileSystem.write t.desk.files file content = (result, files))
    (h : post result ⟨{ t.desk with files }, t.acts ++ [.wrote file content]⟩)
    : Concludes (fun _ => Terminal.writeFile file content) t post fails := by
  apply concludes_taping (Terminal.writeFile file content) (fun _ => .wrote file content) _ h
  change ((FileSystem.write t.desk.files file content).1,
    { t.desk with files := (FileSystem.write t.desk.files file content).2 }) = _
  rw [hwrite]

theorem concludes_act {routine : Routine String E Unit} {ended : Session String E → Prop}
    {bound : Nat} {post : Session String E → Tape F → Prop}
    (h : Completes bound s routine.program ended)
    (hpost : ∀ s', ended s' → post { s' with world := ⟨"", []⟩ } (t.print s'.world.memory))
    : Concludes (fun bound => act bound s routine) t post fails := by
  obtain ⟨s', hrun, hended⟩ := run?_of_completes h
  refine .done ?_ (hpost s' hended)
  filter_upwards [eventually_ge_atTop bound] with bound' hle
  unfold act
  rw [Session.run?_of_le hle hrun]
  rfl

/--
Whether the session of a player waits at a story where it can have been brought by what was typed at
a desk, with the files that are there.
-/
def WaitsAt (P : E → Prop) (d : Desk F) (story : E) (s : Session String E) (t : Tape F) : Prop :=
  ∃ reached, Direct.Reaches d story reached t.desk.files ∧ Awaits P s reached ""

theorem WaitsAt.congr {t' : Tape F} (h : WaitsAt P d story s t)
    (hfiles : t'.desk.files = t.desk.files)
    : WaitsAt P d story s t' := by
  unfold WaitsAt
  rw [hfiles]
  exact h

/--
Whether a command was carried out that left a session waiting, unless it ended the play.
-/
structure Carried (P : E → Prop) (d : Desk F) (story : E) (command : Command) (t : Tape F)
    (left : Option (Session String E)) (t' : Tape F) : Prop where
  answered : Answered (.accepted command) t t'
  waits : ∀ s', left = some s' → WaitsAt P d story s' t'

theorem concludes_shown {routine : Routine String E Unit} {behind : E}
    {lines : List Line} {bound : Nat} (hbehind : Direct.Reaches d story behind t.desk.files)
    (h : Completes bound s routine.program (Awaits P · behind (Direct.textOf lines)))
    : Concludes (fun bound => some <$> act bound s routine) t
        (fun left t' => t' = t.print (Direct.textOf lines) ∧
          ∀ s', left = some s' → WaitsAt P d story s' t') fails := by
  apply Concludes.map
  apply concludes_act h
  intro s' hawaits
  rw [hawaits.memory]
  refine ⟨rfl, ?_⟩
  rintro _ ⟨⟩
  exact ⟨behind, hbehind, hawaits.printed⟩

variable (hP : Engine.Secluded P)

include hP

theorem exists_completes_choose (hpauses : Direct.Pauses d story) {reached : E} {index : Nat}
    {files : F} (hreaches : Direct.Reaches d story reached files) (h : Awaits P s reached "")
    (htyped : d.Types (.choose index))
    : ∃ behind lines bound, Direct.Reaches d story behind files ∧
        Completes bound s (Routine.perform (.choose index true)).program
          (Awaits P · behind (Direct.textOf lines)) := by
  by_cases hindex : index < (Engine.choices reached).length
  . have hchosen := hreaches.choose htyped hindex
    have hstory := hP.choose reached index h.isStory
    cases hchoose : Engine.choose reached index with
    | mk result chosen =>
      rw [hchoose] at hchosen hstory
      cases result with
      | error error =>
        have hfailed := ends_choose_failed h (h.commit hindex hchoose) (h.led hstory)
        exact ⟨chosen, [], 0, hchosen, completes_perform (hfailed _)⟩
      | ok _ =>
        obtain ⟨lines, failure, behind, hsegment⟩ := hpauses chosen files hchosen
        have hcompletes := completes_choose hP h hindex hchoose hsegment (Nat.lt_succ_self _)
        exact ⟨behind, lines, _, hchosen.segment hsegment, hcompletes.imp fun _ _ => Halts.toAwaits⟩
  . have hcommit : ∃ error, s.commit index = (.error error, s) := by
      unfold Session.commit
      rw [h.holds]
      dsimp only
      split
      . exact ⟨_, rfl⟩
      . rw [if_pos (by omega)]
        exact ⟨_, rfl⟩
    obtain ⟨error, hcommit⟩ := hcommit
    exact ⟨reached, [], 0, hreaches, completes_perform (ends_choose_failed h hcommit h _)⟩

/--
Whether a command is carried out, or fails for another reason than the bound, with nothing but a
reply.
-/
abbrev CarriesOut (P : E → Prop) (d : Desk F) (story : E) (s : Session String E) (t : Tape F)
    (command : Command) : Prop :=
  Concludes (fun bound => obey bound s command) t (Carried P d story command t)
    (fun _ t' => Answered (.accepted command) t t')

theorem concludes_choose (hpauses : Direct.Pauses d story) (hwaits : WaitsAt P d story s t)
    {index : Nat} (htyped : d.Types (.choose index))
    : CarriesOut P d story s t (.choose index) := by
  obtain ⟨reached, hreaches, hawaits⟩ := hwaits
  obtain ⟨behind, lines, bound, hbehind, hcompletes⟩ :=
    exists_completes_choose hP hpauses hreaches hawaits htyped
  apply (concludes_shown hbehind hcompletes).imp
  rintro left _ ⟨rfl, hleft⟩
  exact ⟨⟨rfl, _, .choose index lines, rfl⟩, hleft⟩

theorem concludes_load (hpauses : Direct.Pauses d story) (hwaits : WaitsAt P d story s t)
    {file : String} (htyped : d.Types (.load file)) : CarriesOut P d story s t (.load file) := by
  obtain ⟨reached, hreaches, hawaits⟩ := hwaits
  unfold CarriesOut obey
  apply Concludes.bind
  refine concludes_contentOf ?_ fun _ _ _ => ⟨rfl, _, .notLoaded file, rfl⟩
  intro content hcontent
  have hstory := hP.load reached content hawaits.isStory
  cases hloaded : Engine.load reached content with
  | mk result loaded =>
    rw [hloaded] at hstory
    rw [hawaits.load hloaded]
    cases result with
    | error error => exact concludes_throw (by simp) ⟨rfl, _, .notLoaded file, rfl⟩
    | ok _ =>
      have hreached := hreaches.load htyped hcontent hloaded
      obtain ⟨lines, failure, behind, hsegment⟩ := hpauses loaded _ hreached
      have hcompletes := completes_advance hP (hawaits.led hstory) hsegment (Nat.lt_succ_self _)
      apply Concludes.bind
      apply concludes_print
      have hbehind : Direct.Reaches d story behind
          (Tape.print ⟨t.desk, t.acts ++ [.opened file]⟩ "Ok.\n").desk.files :=
        hreached.segment hsegment
      apply (concludes_shown hbehind (hcompletes.imp fun _ _ => Halts.toAwaits)).imp
      rintro left _ ⟨rfl, hleft⟩
      refine ⟨⟨rfl, _, .load file lines, ?_⟩, hleft⟩
      simp [Tape.print]

omit hP in
theorem concludes_save (hwaits : WaitsAt P d story s t) {file : String}
    (htyped : d.Types (.save file))
    : CarriesOut P d story s t (.save file) := by
  obtain ⟨reached, hreaches, hawaits⟩ := hwaits
  unfold CarriesOut obey Session.save
  rw [hawaits.holds]
  dsimp only
  cases hsaves : Engine.save reached with
  | error error =>
    exact concludes_throw (by simp) ⟨rfl, _, .notSaved file, (List.append_nil _).symm⟩
  | ok content =>
    apply Concludes.bind
    cases hwrite : FileSystem.write t.desk.files file content with
    | mk result files =>
      apply concludes_writeFile hwrite
      cases result with
      | error reason => exact concludes_throw (by simp) ⟨rfl, _, .notWritten file content, rfl⟩
      | ok _ =>
        apply Concludes.bind
        apply concludes_print
        apply concludes_pure
        refine ⟨⟨rfl, _, .save file content, ?_⟩, ?_⟩
        . simp [Tape.print]
        . rintro _ ⟨⟩
          exact ⟨reached, hreaches.save htyped hsaves hwrite, hawaits⟩

theorem concludes_reset (hpauses : Direct.Pauses d story) (hwaits : WaitsAt P d story s t)
    (htyped : d.Types .reset)
    : CarriesOut P d story s t .reset := by
  obtain ⟨reached, hreaches, hawaits⟩ := hwaits
  cases hstart : Engine.reset reached Direct.nowhere with
  | mk result rest =>
    obtain ⟨start, world⟩ := rest
    have hreached := hreaches.reset htyped
    rw [hstart] at hreached
    obtain ⟨lines, failure, behind, hsegment⟩ := hpauses start _ hreached
    have hcompletes := completes_reset hP hawaits hstart hsegment (Nat.lt_succ_self _)
    have hshown := hcompletes.imp fun _ _ => Halts.toAwaits
    apply (concludes_shown (hreached.segment hsegment) hshown).imp
    rintro left _ ⟨rfl, hleft⟩
    exact ⟨⟨rfl, _, .reset lines, rfl⟩, hleft⟩

theorem concludes_rewind (hpauses : Direct.Pauses d story) (hwaits : WaitsAt P d story s t)
    (htyped : d.Types .rewind)
    : CarriesOut P d story s t .rewind := by
  obtain ⟨reached, hreaches, hawaits⟩ := hwaits
  cases hstart : Engine.rewind reached with
  | mk result start =>
    have hreached := hreaches.rewind htyped
    rw [hstart] at hreached
    obtain ⟨lines, failure, behind, hsegment⟩ := hpauses start _ hreached
    have hcompletes := completes_rewind hP hawaits hstart hsegment (Nat.lt_succ_self _)
    have hshown := hcompletes.imp fun _ _ => Halts.toAwaits
    apply (concludes_shown (hreached.segment hsegment) hshown).imp
    rintro left _ ⟨rfl, hleft⟩
    exact ⟨⟨rfl, _, .rewind lines, rfl⟩, hleft⟩

theorem concludes_obey (hpauses : Direct.Pauses d story) (hwaits : WaitsAt P d story s t)
    {command : Command} (htyped : d.Types command) : CarriesOut P d story s t command := by
  cases command with
  | choose index => exact concludes_choose hP hpauses hwaits htyped
  | exit => exact concludes_pure ⟨⟨rfl, _, .exit, (List.append_nil _).symm⟩, by simp⟩
  | help =>
    apply Concludes.bind
    apply concludes_print
    apply concludes_pure
    refine ⟨⟨rfl, _, .help, rfl⟩, ?_⟩
    rintro _ ⟨⟩
    exact hwaits.congr rfl
  | load file => exact concludes_load hP hpauses hwaits htyped
  | save file => exact concludes_save hwaits htyped
  | reset => exact concludes_reset hP hpauses hwaits htyped
  | rewind => exact concludes_rewind hP hpauses hwaits htyped

end Command

end Parley.Player
