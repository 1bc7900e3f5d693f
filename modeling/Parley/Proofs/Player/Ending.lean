import Parley.Proofs.Player.Settle

/-!
This module contains that the player ends with its input, whatever is typed and whatever the story
makes of it: each question takes a line of the input or is the last one. A story may come to the
same choices again and again, and a command may leave them as they are, so that nothing but the
lines that are still to be read gets less.
-/

namespace Parley.Player

open Filter

variable {F : Type}

/--
A question that was answered with a line, and what went over the terminal before the next one.
-/
structure Round where
  choices : List Choice
  line : String
  reply : List Act
  replies : Replies (Entry.ofLine choices.length line.toList) reply

def Round.acts (round : Round) : List Act :=
  .printed (promptText round.choices) :: .asked (some round.line) :: round.reply

structure Conversation where
  rounds : List Round := []
  unanswered : Option (List Choice) := none

namespace Conversation

def lines (c : Conversation) : List String :=
  c.rounds.map (·.line)

def acts (c : Conversation) : List Act :=
  c.rounds.flatMap Round.acts ++
    match c.unanswered with
    | none => []
    | some choices => [.printed (promptText choices), .asked none]

def questions (c : Conversation) : Nat :=
  c.rounds.length + if c.unanswered.isSome then 1 else 0

theorem countP_rounds (rounds : List Round)
    : (rounds.flatMap Round.acts).countP Act.isQuestion = rounds.length := by
  induction rounds with
  | nil => rfl
  | cons round rounds ih =>
    have hround : round.acts.countP Act.isQuestion = 1 := by
      unfold Round.acts
      rw [List.countP_cons_of_neg (by simp [Act.isQuestion]),
        List.countP_cons_of_pos (by simp [Act.isQuestion]), round.replies.countP_eq_zero]
    rw [List.flatMap_cons, List.countP_append, hround, ih, List.length_cons, Nat.add_comm]

theorem countP_acts (c : Conversation) : c.acts.countP Act.isQuestion = c.questions := by
  unfold acts questions
  rw [List.countP_append, countP_rounds]
  cases c.unanswered with
  | none => rfl
  | some choices => rfl

end Conversation

/--
Whether a conversation is what went over a terminal, and took the lines that are no longer to be
read.
-/
structure Conversed (c : Conversation) (t t' : Tape F) : Prop where
  acts : t'.acts = t.acts ++ c.acts
  lines : t.desk.lines = c.lines ++ t'.desk.lines
  missed : c.unanswered.isSome → t'.desk.lines = []

section Conversed

variable {t t₁ t' : Tape F}

theorem conversed_nothing : Conversed {} t t where
  acts := by simp [Conversation.acts]
  lines := by simp [Conversation.lines]
  missed := by simp

def Tape.prompted (t : Tape F) (choices : List Choice) : Tape F :=
  ⟨t.desk.prompted choices, t.acts ++ [.printed (promptText choices), .asked t.desk.lines.head?]⟩

theorem conversed_missed {choices : List Choice} (hlines : t.desk.lines = [])
    : Conversed { unanswered := some choices } t (t.prompted choices) where
  acts := by simp [Conversation.acts, Tape.prompted, hlines]
  lines := by simp [Conversation.lines, Tape.prompted, Desk.prompted, hlines]
  missed := by simp [Tape.prompted, Desk.prompted, hlines]

theorem Conversed.after {c : Conversation} (h : Conversed c t₁ t') {choices : List Choice}
    {line : String} {lines : List String} (hlines : t.desk.lines = line :: lines)
    (hreplies : Answered (Entry.ofLine choices.length line.toList) (t.prompted choices) t₁)
    : ∃ round, Conversed { c with rounds := round :: c.rounds } t t' := by
  obtain ⟨hrest, reply, hreply, hacts⟩ := hreplies
  refine ⟨⟨choices, line, reply, hreply⟩, ?_, ?_, h.missed⟩
  . rw [h.acts, hacts]
    simp [Conversation.acts, Round.acts, Tape.prompted, hlines]
  . rw [hlines]
    have hleft : t₁.desk.lines = lines := by
      rw [hrest]
      simp [Tape.prompted, Desk.prompted, hlines]
    rw [← hleft, h.lines]
    rfl

end Conversed

section Ask

variable {m : Type → Type} [Monad m] [LawfulMonad m] [Terminal m] {β : Type}

/--
A question is put once before anything is done with the answer, and anew after a line that is no
command.
-/
theorem readCommand_succ (choices : List Choice) (prompts : Nat)
    (f : Option Command → ExceptT Failure m β)
    : readCommand choices (prompts + 1) >>= f
        =
      (Terminal.print (promptText choices) : ExceptT Failure m Unit) >>= fun _ =>
        (Terminal.readLine : ExceptT Failure m (Option String)) >>= fun line? =>
          match line? with
          | none => f none
          | some line =>
            match Entry.ofLine choices.length line.toList with
            | .accepted command => f (some command)
            | .blank => readCommand choices prompts >>= f
            | .refused refusal =>
              (Terminal.complain ("<" ++ refusal.message ++ ">\n") : ExceptT Failure m Unit)
                >>= fun _ =>
                readCommand choices prompts >>= f := by
  conv =>
    lhs
    unfold readCommand
  simp only [bind_assoc]
  congr
  funext _
  congr
  funext line?
  cases line? with
  | none => exact pure_bind _ _
  | some line =>
    dsimp only
    cases Entry.ofLine choices.length line.toList with
    | accepted command => exact pure_bind _ _
    | blank => rfl
    | refused refusal => exact bind_assoc _ _ _

theorem concludes_readCommand [FileSystem F] {t : Tape F} {choices : List Choice} {prompts : Nat}
    {f : Nat → Option Command → ExceptT Failure (StateM (Tape F)) β} {post : β → Tape F → Prop}
    {fails : Failure → Tape F → Prop}
    (h : Concludes (fun bound =>
      match t.desk.lines.head? with
      | none => f bound none
      | some line =>
        match Entry.ofLine choices.length line.toList with
        | .accepted command => f bound (some command)
        | .blank => readCommand choices (bound - (prompts + 1)) >>= f bound
        | .refused refusal => do
          Terminal.complain ("<" ++ refusal.message ++ ">\n")
          readCommand choices (bound - (prompts + 1)) >>= f bound) (t.prompted choices) post fails)
    : Concludes (fun bound => readCommand choices (bound - prompts) >>= f bound) t post fails := by
  have hput : Concludes (fun bound => readCommand choices (bound - (prompts + 1) + 1) >>= f bound) t
      post fails := by
    simp only [readCommand_succ]
    apply Concludes.bind
    apply concludes_print
    apply Concludes.bind
    apply concludes_taping Terminal.readLine .asked rfl
    unfold Tape.prompted at h
    unfold Tape.print
    rw [List.append_assoc]
    exact h
  apply hput.congr
  filter_upwards [eventually_gt_atTop prompts] with bound hlt
  rw [show bound - (prompts + 1) + 1 = bound - prompts by omega]

end Ask

section Play

variable [FileSystem F] {E : Type} [Engine String E] {P : E → Prop} {d : Desk F} {story : E}
  {s : Session String E} {t : Tape F}

/--
Whether a conversation went over a terminal until a session was left to be stopped.
-/
def Finished (P : E → Prop) (t : Tape F) (s' : Session String E) (t' : Tape F) : Prop :=
  (∃ c, Conversed c t t') ∧ ∃ reached, Awaits P s' reached ""

/--
Whether a conversation went over a terminal until a command failed.
-/
def Broken (t : Tape F) (_ : Failure) (t' : Tape F) : Prop :=
  ∃ c, Conversed c t t' ∧ c.unanswered = none

omit [FileSystem F] [Engine String E] in
theorem Concludes.after {x : Nat → ExceptT Failure (StateM (Tape F)) (Session String E)}
    {t₁ : Tape F} (h : Concludes x t₁ (Finished P t₁) (Broken t₁)) {choices : List Choice}
    {line : String} {lines : List String} (hlines : t.desk.lines = line :: lines)
    (hreplies : Answered (Entry.ofLine choices.length line.toList) (t.prompted choices) t₁)
    : Concludes x t₁ (Finished P t) (Broken t) := by
  apply h.mono
  . rintro s' t' ⟨⟨c, hconversed⟩, hawaits⟩
    obtain ⟨round, hafter⟩ := hconversed.after hlines hreplies
    exact ⟨⟨_, hafter⟩, hawaits⟩
  . rintro failure t' ⟨c, hconversed, hanswered⟩
    obtain ⟨round, hafter⟩ := hconversed.after hlines hreplies
    exact ⟨_, hafter, hanswered⟩

theorem WaitsAt.finished {t₁ t' : Tape F} {c : Conversation} (h : WaitsAt P d story s t₁)
    (hconversed : Conversed c t t') : Finished P t s t' := by
  obtain ⟨reached, _, hawaits⟩ := h
  exact ⟨⟨c, hconversed⟩, reached, hawaits⟩

theorem concludes_playOn_of {turns : Nat} {post : Session String E → Tape F → Prop}
    {fails : Failure → Tape F → Prop} (hends : post s t)
    (hask : Concludes (fun bound =>
      readCommand s.runner.choices (bound - turns) >>= answer false bound s (bound - (turns + 1)))
      t post fails)
    : Concludes (fun bound => playOn false bound s (bound - turns)) t post fails := by
  have hturn : ∀ᶠ bound in atTop, playOn (m := StateM (Tape F)) false bound s (bound - turns) =
      if s.runner.choices.isEmpty then
        pure s
      else
        readCommand s.runner.choices (bound - turns) >>= answer false bound s
          (bound - (turns + 1)) := by
    filter_upwards [eventually_gt_atTop turns] with bound hlt
    rw [show bound - turns = bound - (turns + 1) + 1 by omega, playOn_succ]
    rfl
  split at hturn
  . exact (concludes_pure hends).congr hturn
  . exact hask.congr hturn

variable (hP : Engine.Secluded P) (hpauses : Direct.Pauses d story)

include hP hpauses

theorem concludes_ask {choices : List Choice} {lines : List String} (prompts turns : Nat)
    (hwaits : WaitsAt P d story s t) (hlines : t.desk.lines = lines) (hread : lines ⊆ d.lines)
    : Concludes (fun bound =>
      readCommand choices (bound - prompts) >>= answer false bound s (bound - turns)) t
        (Finished P t) (Broken t) := by
  -- Each of the two loops takes one off what the bound leaves to it, and a line off the input.
  induction lines generalizing s t choices prompts turns with
  | nil =>
    apply concludes_readCommand
    rw [hlines]
    exact concludes_pure (hwaits.finished (conversed_missed hlines))
  | cons line lines ih =>
    have hagain : ∀ {s₁ : Session String E} {t₁ : Tape F} {choices₁ : List Choice}
        (prompts turns : Nat),
        Answered (Entry.ofLine choices.length line.toList) (t.prompted choices) t₁ →
        WaitsAt P d story s₁ t₁ →
        Concludes (fun bound =>
          readCommand choices₁ (bound - prompts) >>= answer false bound s₁ (bound - turns)) t₁
          (Finished P t) (Broken t) := by
      intro s₁ t₁ choices₁ prompts turns hanswered hwaits₁
      have hrest : t₁.desk.lines = lines := by
        rw [hanswered.1]
        change t.desk.lines.tail = lines
        rw [hlines, List.tail_cons]
      exact (ih prompts turns hwaits₁ hrest (List.subset_of_cons_subset hread)).after
          hlines hanswered
    apply concludes_readCommand
    rw [hlines, List.head?_cons]
    dsimp only
    cases hentry : Entry.ofLine choices.length line.toList with
    | blank =>
      refine hagain (prompts + 1) turns ?_ (hwaits.congr rfl)
      rw [hentry]
      exact ⟨rfl, _, .blank, (List.append_nil _).symm⟩
    | refused refusal =>
      apply Concludes.bind
      apply concludes_taping (Terminal.complain _) (fun _ => .complained _) rfl
      refine hagain (prompts + 1) turns ?_ (hwaits.congr rfl)
      rw [hentry]
      exact ⟨rfl, _, .refused refusal, rfl⟩
    | accepted command =>
      have htyped : d.Types command := ⟨line, hread (List.mem_cons_self ..), choices.length, hentry⟩
      have hprompted : WaitsAt P d story s (t.prompted choices) := hwaits.congr rfl
      have hcarries : CarriesOut P d story s (t.prompted choices) command :=
        concludes_obey hP hpauses hprompted htyped
      apply Concludes.bind
      apply hcarries.mono
      . rintro left t₁ ⟨hanswered, hleft⟩
        rw [← hentry] at hanswered
        obtain ⟨round, hround⟩ := conversed_nothing.after hlines hanswered
        cases left with
        | none => exact concludes_pure (hwaits.finished hround)
        | some s₁ =>
          have hwaits₁ : WaitsAt P d story s₁ t₁ := hleft s₁ rfl
          exact concludes_playOn_of (hwaits₁.finished hround)
              (hagain turns (turns + 1) hanswered hwaits₁)
      . intro failure t₁ hanswered
        rw [← hentry] at hanswered
        obtain ⟨round, hround⟩ := conversed_nothing.after hlines hanswered
        exact ⟨_, hround, rfl⟩

theorem concludes_playOn (hwaits : WaitsAt P d story s t) (hlines : t.desk.lines = d.lines)
    : Concludes (fun bound => playOn false bound s bound) t (Finished P t) (Broken t) := by
  have hask : Concludes
      (fun bound => readCommand s.runner.choices (bound - 0) >>= answer false bound s (bound - 1)) t
      (Finished P t) (Broken t) :=
    concludes_ask hP hpauses 0 1 hwaits hlines (List.Subset.refl _)
  exact concludes_playOn_of (hwaits.finished conversed_nothing) hask

end Play

/--
Whether a play showed the first lines of a story, was a conversation, and then came to its end.
-/
structure Transcript (settings : Settings) (d : Desk F) (lines : List Line) (c : Conversation)
    (closing : List Act) (t : Tape F) : Prop where
  acts : t.acts = [.opened settings.file, .printed (Direct.textOf lines)] ++ c.acts ++ closing
  read : d.lines = c.lines ++ t.desk.lines
  missed : c.unanswered.isSome → t.desk.lines = []

section Transcript

variable {settings : Settings} {d : Desk F} {lines : List Line} {c : Conversation}
    {closing : List Act} {t t' : Tape F}

theorem Conversed.transcript (settings : Settings)
    (h : Conversed c (Tape.print ⟨d, [.opened settings.file]⟩ (Direct.textOf lines)) t)
    : Transcript settings d lines c [] t where
  acts := by
    rw [h.acts, List.append_nil]
    rfl
  read := h.lines
  missed := h.missed

theorem Transcript.close (h : Transcript settings d lines c [] t)
    (hacts : t'.acts = t.acts ++ closing) (hlines : t'.desk.lines = t.desk.lines)
    : Transcript settings d lines c closing t' where
  acts := by rw [hacts, h.acts, List.append_nil]
  read := by rw [hlines, h.read]
  missed := by
    rw [hlines]
    exact h.missed

theorem Transcript.questions (h : Transcript settings d lines c closing t)
    (hclosing : closing.countP Act.isQuestion = 0) : t.questions = c.questions := by
  unfold Tape.questions
  rw [h.acts, List.countP_append, List.countP_append, c.countP_acts, hclosing]
  simp [Act.isQuestion]

/--
A question that has no answer is one more than the input has lines, and only if it was read to its
end.
-/
theorem Transcript.questions_le (h : Transcript settings d lines c closing t)
    : c.questions ≤ d.lines.length + 1 := by
  have hlines : c.lines.length = c.rounds.length := List.length_map ..
  unfold Conversation.questions
  rw [h.read, List.length_append, hlines]
  split <;> omega

end Transcript

section Ending

variable [FileSystem F] {I : Type} [Ink.Runtime String I]

theorem concludes_play [Ink.Runtime.LawfulRuntime String I] {settings : Settings} {d : Desk F}
    {content : String} {source : Ink.Source} {story : Ink.Tale I} (hauto : settings.auto = false)
    (hcontent : FileSystem.read d.files settings.file = .ok content)
    (hsource : sourceOf settings content = .ok source)
    (hcreate : source.create ⟨!settings.strict⟩ = .ok (some story))
    (hpauses : Direct.Pauses d story)
    : Concludes (fun bound => play I settings bound) ⟨d, []⟩
        (fun _ t' => ∃ lines c, Transcript settings d lines c [.printed ""] t')
        (fun _ t' => ∃ lines c, Transcript settings d lines c [] t' ∧ c.unanswered = none) := by
  obtain ⟨lines, failure, behind, hsegment⟩ := hpauses story d.files .start
  unfold play
  apply Concludes.bind
  apply concludes_contentOf
  . intro content' hcontent'
    obtain rfl : content = content' := Except.ok.inj (hcontent.symm.trans hcontent')
    rw [hsource]
    unfold playStory
    apply Concludes.bind
    apply concludes_act (completes_opening hcreate hsegment (Nat.lt_succ_self _))
    intro s hhalts
    have hwaits : WaitsAt Ink.Tale.Unbound d story { s with world := ⟨"", []⟩ }
        (Tape.print ⟨d, [.opened settings.file]⟩ s.world.memory) :=
      ⟨behind, Direct.Reaches.start.segment hsegment, hhalts.toAwaits.printed⟩
    have hplayed := concludes_playOn Ink.Tale.secluded_unbound hpauses hwaits rfl
    rw [hhalts.memory] at hplayed ⊢
    simp only [hhalts.holds, Option.isNone_some, Bool.false_eq_true, if_false, hauto]
    apply Concludes.bind
    apply hplayed.mono
    . rintro s' t' ⟨⟨c, hconversed⟩, reached, hawaits⟩
      have hstopped : Completes 2 s' (Routine.perform .stop).program (·.world.memory = "") :=
        completes_perform (ends_stop hawaits (by omega))
      apply Concludes.bind
      apply concludes_act hstopped
      intro s'' hmemory
      rw [hmemory]
      exact concludes_pure ⟨lines, c, (hconversed.transcript settings).close rfl rfl⟩
    . rintro failure t' ⟨c, hconversed, hanswered⟩
      exact ⟨lines, c, hconversed.transcript settings, hanswered⟩
  . intro reason hmissing
    cases hcontent.symm.trans hmissing

def closing : Except Failure Unit → List Act
  | .ok _ => [.printed ""]
  | .error failure => [.complained failure.report]

def exitCode : Except Failure Unit → Nat
  | .ok _ => 0
  | .error _ => 1

theorem countP_closing (played : Except Failure Unit)
    : (closing played).countP Act.isQuestion = 0 := by
  cases played <;> rfl

def Tape.reported (t : Tape F) : Except Failure Unit → Tape F
  | .ok _ => t
  | .error failure =>
    ⟨{ t.desk with errors := t.desk.errors ++ failure.report },
      t.acts ++ [.complained failure.report]⟩

theorem run_of_play {parse : List String → Request} {arguments : List String}
    {settings : Settings} {bound : Nat} {played : Except Failure Unit}
    {t t' : Tape F} (harguments : parse arguments = .play settings)
    (hplayed : (play (m := StateM (Tape F)) I settings bound).run.run t = (played, t'))
    : (runWith I parse arguments bound : StateM (Tape F) Nat).run t
        =
      (exitCode played, t'.reported played) := by
  unfold runWith
  rw [harguments]
  dsimp only
  rw [StateT.run_bind, hplayed]
  cases played with
  | ok _ => rfl
  | error failure => rfl

/--
The player ends with its input, with one result and in one way within every bound that is large
enough, if the lines of the story come to an end wherever it can be brought. Each question is
answered with a line of the input, or is the last one and asked at the end of the input; so there is
at most one question more than there are lines.
-/
theorem run_ends [Ink.Runtime.LawfulRuntime String I] {parse : List String → Request}
    {arguments : List String} {settings : Settings} {d : Desk F} {content : String}
    {source : Ink.Source} {story : Ink.Tale I} (harguments : parse arguments = .play settings)
    (hauto : settings.auto = false) (hcontent : FileSystem.read d.files settings.file = .ok content)
    (hsource : sourceOf settings content = .ok source)
    (hcreate : source.create ⟨!settings.strict⟩ = .ok (some story))
    (hpauses : Direct.Pauses d story)
    : ∃ played lines c ended least,
        played ≠ .error .endless ∧ Transcript settings d lines c (closing played) ended ∧
          (c.unanswered.isSome → played = .ok ()) ∧ ended.questions ≤ d.lines.length + 1 ∧
          ∀ bound ≥ least,
            ((play I settings bound : ExceptT Failure (StateM (Tape F)) Unit).run.run ⟨d, []⟩).1
              = played ∧
              (runWith I parse arguments bound : StateM (Tape F) Nat).run ⟨d, []⟩ =
              (exitCode played, ended) ∧
              (runWith I parse arguments bound : StateM (Desk F) Nat).run d =
              (exitCode played, ended.desk) := by
  have hends : ∃ played lines c t, played ≠ .error .endless ∧
      Transcript settings d lines c (closing played) (t.reported played) ∧
      (c.unanswered.isSome → played = .ok ()) ∧
      ∀ᶠ bound in atTop,
        (play (m := StateM (Tape F)) I settings bound).run.run ⟨d, []⟩ = (played, t) := by
    cases concludes_play hauto hcontent hsource hcreate hpauses with
    | @done _ t hsettles hdone =>
      obtain ⟨lines, c, htranscript⟩ := hdone
      exact ⟨.ok (), lines, c, t, by simp, htranscript, by simp, hsettles⟩
    | @failed failure t hsettles hreal hfailed =>
      obtain ⟨lines, c, htranscript, hanswered⟩ := hfailed
      have hreal' : Except.error failure ≠ (.error .endless : Except Failure Unit) := by
        simpa using hreal
      exact ⟨.error failure, lines, c, t, hreal',
        htranscript.close rfl rfl, by simp [hanswered], hsettles⟩
  obtain ⟨played, lines, c, t, hreal, htranscript, hmissed, hsettles⟩ := hends
  obtain ⟨least, hleast⟩ := eventually_atTop.mp hsettles
  refine ⟨played, lines, c, t.reported played, least, hreal, htranscript, hmissed, ?_, ?_⟩
  . rw [htranscript.questions (countP_closing played)]
    exact htranscript.questions_le
  . intro bound hbound
    have htaped := run_of_play harguments (hleast bound hbound)
    refine ⟨by rw [hleast bound hbound], htaped, ?_⟩
    have huntaped := run_untaped (I := I) parse arguments bound ⟨d, []⟩
    rw [htaped] at huntaped
    exact huntaped

end Ending

theorem ofLine_zero {count : Nat} {line : List Char} {command : Command}
    (h : Entry.ofLine count line = .accepted command) (hcommand : ∀ index, command ≠ .choose index)
    : Entry.ofLine 0 line = .accepted command := by
  unfold Entry.ofLine at h ⊢
  dsimp only at h ⊢
  split at h
  . exact h
  . split at h
    . cases h
      exact absurd rfl (hcommand _)
    . cases h

/--
A desk at which a number that is too large, a question for help and the number of the only choice
are typed.
-/
def slowDesk : Desk :=
  { soleDesk with lines := ["2\n", "help\n", "1\n"] }

theorem types_slow {command : Command} (h : slowDesk.Types command)
    : command = .help ∨ ∃ index, command = .choose index := by
  have hentries : slowDesk.lines.map (Entry.ofLine 0 ·.toList)
      = [.refused .outOfRange, .accepted .help, .refused .outOfRange] := by
    decide +kernel
  obtain ⟨line, hmem, count, haccepted⟩ := h
  by_contra hother
  rw [not_or, not_exists] at hother
  have hentry : Entry.accepted command ∈ slowDesk.lines.map (Entry.ofLine 0 ·.toList) :=
    List.mem_map.mpr ⟨line, hmem, ofLine_zero haccepted hother.2⟩
  rw [hentries] at hentry
  simp [hother.1] at hentry

theorem pauses_slow {E : Type} [Engine String E]
    {start told chosen ended : E} (htold : (Engine.continueOne start Direct.nowhere).2.1 = told)
    (hchosen : (Engine.choose told 0).2 = chosen)
    (hended : (Engine.continueOne chosen Direct.nowhere).2.1 = ended)
    (hgoes : [start, told, chosen, ended].map Engine.canContinue = [true, false, true, false])
    (hchoices : [start, told, chosen, ended].map (Engine.choices · |>.length) = [0, 1, 0, 0])
    : Direct.Pauses slowDesk start := by
  simp only [List.map_cons, List.map_nil, List.cons.injEq, and_true] at hgoes hchoices
  obtain ⟨hstart, hthere, hon, hover⟩ := hgoes
  obtain ⟨hnone, hone, hnone', hnone''⟩ := hchoices
  have hplaces : ∀ reached files, Direct.Reaches slowDesk start reached files →
      reached = start ∨ reached = told ∨ reached = chosen ∨ reached = ended := by
    intro reached files hreached
    induction hreached with
    | start => exact .inl rfl
    | line _ hcontinue ih =>
      obtain rfl | rfl | rfl | rfl := ih
      . exact .inr (.inl htold)
      . simp [hthere] at hcontinue
      . exact .inr (.inr (.inr hended))
      . simp [hover] at hcontinue
    | @choose _ _ index _ _ hoffered ih =>
      obtain rfl | rfl | rfl | rfl := ih
      . omega
      . obtain rfl : index = 0 := by omega
        exact .inr (.inr (.inl hchosen))
      . omega
      . omega
    | reset _ htyped | rewind _ htyped | load _ htyped | save _ htyped =>
      simpa using types_slow htyped
  have hline : ∀ {story behind : E}, Engine.canContinue story = true →
      Engine.canContinue behind = false →
      (Engine.continueOne story Direct.nowhere).2.1 = behind →
      ∃ lines failure behind, Direct.Segment story lines failure behind := by
    intro story behind hcontinue hstill hbehind
    cases hdone : Engine.continueOne story Direct.nowhere with
    | mk result rest =>
      obtain ⟨_, world⟩ := rest
      rw [hdone] at hbehind
      subst hbehind
      cases result with
      | error error => exact ⟨_, _, _, .fails hcontinue hdone⟩
      | ok line => exact ⟨_, _, _, .line hcontinue hdone (.still hstill)⟩
  intro reached files hreached
  obtain rfl | rfl | rfl | rfl := hplaces reached files hreached
  . exact hline hstart hthere htold
  . exact ⟨_, _, _, .still hthere⟩
  . exact hline hon hover hended
  . exact ⟨_, _, _, .still hover⟩

theorem run_ends_slow
    : Request.ofArguments ["s"] = .play { file := "s" } ∧
        ∃ story : Ink.Story String,
          (Ink.Source.document soleText : Ink.Source).create ⟨true⟩ = .ok (some story) ∧
          Direct.Pauses slowDesk story ∧
          ∃ played, ∃ ended : Tape Directory, ∃ least,
            played ≠ .error .endless ∧ ended.questions ≤ 4 ∧
            ∀ bound ≥ least,
              (run ["s"] bound : StateM Desk Nat).run slowDesk = (exitCode played, ended.desk) := by
  have hrequest : Request.ofArguments ["s"] = .play { file := "s" } := by decide +kernel
  have hplaces : ((Ink.Source.document soleText : Ink.Source).create (I := Ink.Interpreter String)
      ⟨true⟩).toOption.join.map (fun start =>
        let told := (Engine.continueOne start Direct.nowhere).2.1
        let chosen := (Engine.choose told 0).2
        let ended := (Engine.continueOne chosen Direct.nowhere).2.1
        ([start, told, chosen, ended].map Engine.canContinue,
          [start, told, chosen, ended].map (Engine.choices · |>.length)))
      = some ([true, false, true, false], [0, 1, 0, 0]) := by
    decide +kernel
  cases hcreate : (Ink.Source.document soleText : Ink.Source).create
      (I := Ink.Interpreter String) ⟨true⟩ with
  | error error =>
    rw [hcreate] at hplaces
    cases hplaces
  | ok found =>
    rw [hcreate] at hplaces
    cases found with
    | none => cases hplaces
    | some story =>
      obtain ⟨hgoes, hchoices⟩ := Prod.mk.inj (Option.some_inj.mp hplaces)
      have hpauses : Direct.Pauses slowDesk story := pauses_slow rfl rfl rfl hgoes hchoices
      obtain ⟨played, lines, c, ended, least, hreal, htranscript, hmissed, hquestions, hruns⟩ :=
        run_ends (d := slowDesk) hrequest rfl read_sole rfl hcreate hpauses
      refine ⟨hrequest, story, rfl, hpauses, played, ended, least, hreal, hquestions, ?_⟩
      intro bound hbound
      exact (hruns bound hbound).2.2

end Parley.Player
