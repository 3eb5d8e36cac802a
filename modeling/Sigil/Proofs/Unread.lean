import Mathlib.Data.List.TakeWhile
import Sigil.Proofs.Likeness
import Sigil.Proofs.Streaming
import Sigil.Token.Lexer

/-!
# Input that is not read

A run cannot depend on input that it does not read.  Input is taken in line by line, so this
is said of input that is cut at the end of a line: what comes after the cut has no influence
on a run that reads no more than there is before it.

* Input.  `Input.answers` is how often an input can be read before its end is met, and
  `Input.read_followedBy` shows that more input behind it does not change such a reading.
* Counting.  `ReadsAtMost` bounds the characters that a run reads, on any path through its
  calls and loops.
* Runs.  `Twins` are points of two runs that differ in what comes after the cut.  Steps,
  failures and whole programs take twins to twins.
-/

namespace Sigil

/-! ## Input -/

namespace Input

/-- Whether some bytes are whole lines. -/
def WholeLines (bytes : List UInt8) : Prop :=
  bytes = [] ∨ bytes.getLast? = some newline

/-- The input with more bytes behind it. -/
def followedBy (input : Input) (more : List UInt8) : Input :=
  { input with bytes := input.bytes ++ more }

theorem splitLine_of_newline {front after : List UInt8} (hfront : newline ∉ front) :
    splitLine (front ++ newline :: after) = (front ++ [newline], after) := by
  have hother : ∀ b ∈ front, (b != newline) = true := by
    intro b hb
    have hne : b ≠ newline := by
      rintro rfl
      exact hfront hb
    simpa using hne
  have hdrop : (front ++ newline :: after).dropWhile (· != newline) = newline :: after := by
    rw [List.dropWhile_append_of_pos hother]
    rfl
  have htake : (front ++ newline :: after).takeWhile (· != newline) = front := by
    rw [List.takeWhile_append_of_pos hother]
    simp
  rw [splitLine, hdrop, htake]

/-- Whole lines begin with a line, and whole lines come after it. -/
theorem WholeLines.exists_line {bytes : List UInt8} (h : WholeLines bytes) (hne : bytes ≠ []) :
    ∃ front after, newline ∉ front ∧ bytes = front ++ newline :: after ∧ WholeLines after := by
  have hlast : bytes.getLast? = some newline := h.resolve_left hne
  obtain ⟨front, after, rfl, hfront⟩ := List.eq_append_cons_of_mem (List.mem_of_getLast? hlast)
  refine ⟨front, after, hfront, rfl, ?_⟩
  cases after with
  | nil => exact .inl rfl
  | cons b rest =>
    refine .inr ?_
    rwa [List.getLast?_append_cons, List.getLast?_cons_cons] at hlast

theorem splitLine_append {bytes : List UInt8} (h : WholeLines bytes) (hne : bytes ≠ [])
    (more : List UInt8) :
    splitLine (bytes ++ more) = ((splitLine bytes).1, (splitLine bytes).2 ++ more) := by
  obtain ⟨front, after, hfront, rfl, _⟩ := h.exists_line hne
  rw [List.append_assoc, List.cons_append, splitLine_of_newline hfront,
    splitLine_of_newline hfront]

theorem splitLine_of_not_mem {bytes : List UInt8} (hmem : newline ∉ bytes) :
    splitLine bytes = (bytes, []) := by
  have hdrop : bytes.dropWhile (· != newline) = [] := by
    refine List.dropWhile_eq_nil_iff.2 ?_
    intro b hb
    have hother : b ≠ newline := by
      rintro rfl
      exact hmem hb
    simpa using hother
  rw [splitLine, hdrop]

/-- What comes after the first line is shorter. -/
theorem length_splitLine_lt {bytes : List UInt8} (hne : bytes ≠ []) :
    (splitLine bytes).2.length < bytes.length := by
  by_cases hmem : newline ∈ bytes
  · obtain ⟨front, after, rfl, hfront⟩ := List.eq_append_cons_of_mem hmem
    simp only [splitLine_of_newline hfront, List.length_append, List.length_cons]
    omega
  · rw [splitLine_of_not_mem hmem]
    exact List.length_pos_iff.2 hne

theorem normalizeLine_ne_nil (line : List Char) : normalizeLine line ≠ [] := by
  rw [normalizeLine]
  split
  · simp
  · simp

/-- What a reading comes to.  There is a character of the current line, or nothing at all is
left, or the next line is taken in, and then it has a character or it is no text. -/
theorem read_cases (input : Input) :
    (∃ c rest, input.pending = c :: rest ∧ input.read = (.ok (some c), ⟨rest, input.bytes⟩)) ∨
    (input.pending = [] ∧ input.bytes = [] ∧ input.read = (.ok none, input)) ∨
    (input.pending = [] ∧ input.bytes ≠ [] ∧
      ((∃ text c rest, String.fromUTF8? (splitLine input.bytes).1.toByteArray = some text ∧
        normalizeLine text.toList = c :: rest ∧
        input.read = (.ok (some c), ⟨rest, (splitLine input.bytes).2⟩)) ∨
      (String.fromUTF8? (splitLine input.bytes).1.toByteArray = none ∧
        input.read = (.error .notUtf8, ⟨[], (splitLine input.bytes).2⟩)))) := by
  obtain ⟨pending, bytes⟩ := input
  cases pending with
  | cons c rest => exact .inl ⟨c, rest, rfl, rfl⟩
  | nil =>
    by_cases hbytes : bytes = []
    · subst hbytes
      exact .inr (.inl ⟨rfl, rfl, rfl⟩)
    · refine .inr (.inr ⟨rfl, hbytes, ?_⟩)
      cases htext : String.fromUTF8? (splitLine bytes).1.toByteArray with
      | none =>
        refine .inr ⟨rfl, ?_⟩
        simp only [read, List.isEmpty_nil, if_true, refill, List.isEmpty_iff, if_neg hbytes, htext]
      | some text =>
        obtain ⟨c, rest, hline⟩ := List.exists_cons_of_ne_nil (normalizeLine_ne_nil text.toList)
        refine .inl ⟨text, c, rest, rfl, hline, ?_⟩
        simp only [read, List.isEmpty_nil, if_true, refill, List.isEmpty_iff, if_neg hbytes, htext,
          List.nil_append, hline, List.head?_cons, List.tail_cons]

/-- A reading that does not meet the end of the input uses some of it up. -/
theorem read_shorter {input : Input} (h : input.read.1 ≠ .ok none) :
    Prod.Lex (· < ·) (· < ·) (input.read.2.bytes.length, input.read.2.pending.length)
      (input.bytes.length, input.pending.length) := by
  rcases read_cases input with ⟨c, rest, hpending, hread⟩ | ⟨_, _, hread⟩ | ⟨_, hbytes, hline⟩
  · rw [hread, hpending]
    exact .right _ (Nat.lt_succ_self _)
  · rw [hread] at h
    contradiction
  · rcases hline with ⟨_, c, rest, _, _, hread⟩ | ⟨_, hread⟩
    · rw [hread]
      exact .left _ _ (length_splitLine_lt hbytes)
    · rw [hread]
      exact .left _ _ (length_splitLine_lt hbytes)

/-- How often an input can be read before its end is met.  A line that is no text counts as
well: it answers one reading with a failure. -/
def answers (input : Input) : Nat :=
  if input.read.1 matches .ok none then 0 else input.read.2.answers + 1
termination_by (input.bytes.length, input.pending.length)
decreasing_by
  rename_i h
  refine read_shorter ?_
  intro hnone
  rw [hnone] at h
  contradiction

theorem answers_of_read {input : Input} (h : input.read.1 ≠ .ok none) :
    input.answers = input.read.2.answers + 1 := by
  rw [answers, if_neg]
  intro hmatches
  split at hmatches
  · contradiction
  · contradiction

/-- An input that can still be read is not at its end. -/
theorem read_ne_of_answers_pos {input : Input} (h : 0 < input.answers) :
    input.read.1 ≠ .ok none := by
  intro hnone
  rw [answers, hnone] at h
  exact Nat.lt_irrefl 0 h

/-- Whole lines are left after a reading of whole lines. -/
theorem WholeLines.read {input : Input} (h : WholeLines input.bytes) :
    WholeLines input.read.2.bytes := by
  have hafter : input.bytes ≠ [] → WholeLines (splitLine input.bytes).2 := by
    intro hne
    obtain ⟨front, after, hfront, hbytes, hlines⟩ := h.exists_line hne
    rwa [hbytes, splitLine_of_newline hfront]
  rcases read_cases input with ⟨_, _, _, hread⟩ | ⟨_, _, hread⟩ | ⟨_, hne, hline⟩
  · rwa [hread]
  · rwa [hread]
  · rcases hline with ⟨_, _, _, _, _, hread⟩ | ⟨_, hread⟩
    · rw [hread]
      exact hafter hne
    · rw [hread]
      exact hafter hne

/-- More input behind whole lines is not seen by a reading that does not meet their end. -/
theorem read_followedBy {input : Input} (hlines : WholeLines input.bytes)
    (h : input.read.1 ≠ .ok none) (more : List UInt8) :
    (input.followedBy more).read = (input.read.1, input.read.2.followedBy more) := by
  rcases read_cases input with ⟨c, rest, hpending, hread⟩ | ⟨_, _, hread⟩ | ⟨hpending, hne, hline⟩
  · rw [hread, followedBy, hpending]
    rfl
  · rw [hread] at h
    contradiction
  · have hsplit : splitLine (input.followedBy more).bytes =
        ((splitLine input.bytes).1, (splitLine input.bytes).2 ++ more) :=
      splitLine_append hlines hne more
    have hpending' : (input.followedBy more).pending = [] := hpending
    have hne' : (input.followedBy more).bytes ≠ [] := List.append_ne_nil_of_left_ne_nil hne more
    have hcases := read_cases (input.followedBy more)
    rw [hpending', hsplit] at hcases
    rcases hline with ⟨text, c, rest, htext, hline, hread⟩ | ⟨htext, hread⟩
    · have hfollowed : (input.followedBy more).read =
          (.ok (some c), ⟨rest, (splitLine input.bytes).2 ++ more⟩) := by
        simpa [hne', htext, hline] using hcases
      rw [hread]
      exact hfollowed
    · have hfollowed : (input.followedBy more).read =
          (.error .notUtf8, ⟨[], (splitLine input.bytes).2 ++ more⟩) := by
        simpa [hne', htext] using hcases
      rw [hread]
      exact hfollowed

end Input

namespace Machine

/-! ## Counting -/

/-- The number of characters that the first thing of a task reads.  A token that cannot
flush the output before does not get to read. -/
def Task.reads (s : State) : Task → Nat
  | .sequence (token :: _) =>
    if token.kind = .caret ∧ s.output.flush.1.isOk then 1 else 0
  | _ => 0

/-- The number of characters that the next step reads. -/
def Point.reads (p : Point) : Nat :=
  match p.tasks with
  | [] => 0
  | task :: _ => task.reads p.state

/-- Steps that read a number of characters. -/
inductive LeadsReading (context : Context) : Nat → Point → Point → Prop where
  | refl (p : Point) : LeadsReading context 0 p p
  | head {n : Nat} {p q r : Point} (h : Next context p q)
      (hlater : LeadsReading context n q r) : LeadsReading context (p.reads + n) p r

/-- Whether a run from a point reads no more than a number of characters, the step in which
it fails included. -/
def ReadsAtMost (context : Context) (start : Point) (bound : Nat) : Prop :=
  ∀ n p, LeadsReading context n start p → n + p.reads ≤ bound

section Counting

variable {context : Context} {bound : Nat} {p q : Point}

theorem ReadsAtMost.reads_le (h : ReadsAtMost context p bound) : p.reads ≤ bound := by
  have := h 0 p (.refl p)
  omega

/-- What is left to read after a step. -/
theorem ReadsAtMost.next (h : ReadsAtMost context p bound) (hnext : Next context p q) :
    ReadsAtMost context q (bound - p.reads) := by
  intro n r hlater
  have := h _ r (.head hnext hlater)
  omega

theorem ReadsAtMost.mono {bound' : Nat} (h : ReadsAtMost context p bound)
    (hle : bound ≤ bound') : ReadsAtMost context p bound' := by
  intro n q hleads
  have := h n q hleads
  omega

/-- A run that goes on with a step reads what the step reads, and what is read after it. -/
theorem readsAtMost_of_next {total : Nat} (bound : Nat) (hnext : Next context p q)
    (hle : p.reads + bound ≤ total) (h : ReadsAtMost context q bound) :
    ReadsAtMost context p total := by
  intro n r hleads
  cases hleads with
  | refl => omega
  | head hnext' hlater =>
    obtain rfl := hnext.unique hnext'
    have := h _ r hlater
    omega

/-- Nothing is read once all is done. -/
theorem readsAtMost_done (s : State) : ReadsAtMost context ⟨s, []⟩ 0 := by
  intro n r hleads
  cases hleads with
  | refl => exact Nat.le_refl 0
  | head hnext _ => exact absurd hnext (not_next_done s _)

end Counting

/-! ## Runs -/

/-- Whether two states are the same, but for what comes after the cut in their input. -/
def Parted (more more' : List UInt8) (s t : State) : Prop :=
  ∃ input : Input, Input.WholeLines input.bytes ∧ s.input = input.followedBy more ∧
    t = { s with input := input.followedBy more' }

/-- Points of two runs that are the same but for what comes after the cut in their input,
and before it there is as much as the run still reads. -/
inductive Twins (context : Context) (more more' : List UInt8) : Point → Point → Prop where
  | intro {s : State} {tasks : List Task} {input : Input} (hlines : Input.WholeLines input.bytes)
      (hinput : s.input = input.followedBy more)
      (hreads : ReadsAtMost context ⟨s, tasks⟩ input.answers) :
      Twins context more more' ⟨s, tasks⟩ ⟨{ s with input := input.followedBy more' }, tasks⟩

section Runs

variable {context : Context} {more more' : List UInt8} {s t : State} {p q p' q' : Point}

/-- The first thing of a task, with other input after the cut.  If there is enough before
the cut, the outcome is the same, and what is left before the cut is at least as much as there
was less what has been read. -/
theorem advance_parted (context : Context) (task : Task) {input : Input}
    (hlines : Input.WholeLines input.bytes) (hinput : s.input = input.followedBy more)
    (hreads : task.reads s ≤ input.answers) (more' : List UInt8) :
    ∃ left : Input, Input.WholeLines left.bytes ∧ input.answers - task.reads s ≤ left.answers ∧
      (stateAfter (task.advance context s)).input = left.followedBy more ∧
      task.advance context { s with input := input.followedBy more' } =
        mapState (fun s' => { s' with input := left.followedBy more' })
          (task.advance context s) := by
  cases advance_streams context task s with
  | detached h =>
    refine ⟨input, hlines, Nat.sub_le _ _, h.streams_eq.1.trans hinput, ?_⟩
    refine (h (input.followedBy more') s.output).trans ?_
    have houtput := h.streams_eq.2
    cases hadvance : task.advance context s with
    | ok tasks s' =>
      rw [hadvance, stateAfter_ok] at houtput
      simp only [mapState, State.withStreams, houtput]
    | error error s' =>
      rw [hadvance, stateAfter_error] at houtput
      simp only [mapState, State.withStreams, houtput]
  | @writes token tokens text rest h =>
    have hadvance : (Task.sequence (token :: tokens)).advance context s = _ := h s.input s.output
    have hparted : (Task.sequence (token :: tokens)).advance context
        { s with input := input.followedBy more' } = _ := h (input.followedBy more') s.output
    refine ⟨input, hlines, Nat.sub_le _ _, ?_, ?_⟩
    · rw [hadvance]
      cases (s.output.write text.toUTF8).1 with
      | ok _ => exact hinput
      | error failure => exact hinput
    · rw [hadvance, hparted]
      cases (s.output.write text.toUTF8).1 with
      | ok _ => rfl
      | error failure => rfl
  | @reads token tokens hkind =>
    cases hflush : s.output.flush.1 with
    | error failure =>
      have hflush' : ({ s with input := input.followedBy more' } : State).output.flush.1 =
        .error failure := hflush
      refine ⟨input, hlines, Nat.sub_le _ _, ?_, ?_⟩
      · rw [advance_of_failed_flush hkind hflush]
        exact hinput
      · rw [advance_of_failed_flush hkind hflush, advance_of_failed_flush hkind hflush']
        rfl
    | ok _ =>
      have hflush' : ({ s with input := input.followedBy more' } : State).output.flush.1 =
        .ok () := hflush
      have hone : (Task.sequence (token :: tokens)).reads s = 1 := by
        simp [Task.reads, hkind, hflush, Except.isOk, Except.toBool]
      rw [hone] at hreads ⊢
      -- There is something left to read before the cut, so the reading stays before it.
      have hsome := Input.read_ne_of_answers_pos hreads
      have hread : s.input.read = (input.read.1, input.read.2.followedBy more) := by
        rw [hinput]
        exact Input.read_followedBy hlines hsome more
      have hread' := Input.read_followedBy hlines hsome more'
      refine ⟨input.read.2, hlines.read, ?_, ?_, ?_⟩
      · rw [Input.answers_of_read hsome]
        omega
      · rw [advance_of_flush hkind hflush, hread]
        cases input.read.1 with
        | ok c? => rfl
        | error failure => rfl
      · rw [advance_of_flush hkind hflush, advance_of_flush hkind hflush', hread, hread']
        cases input.read.1 with
        | ok c? => rfl
        | error failure => rfl

theorem Next.twins (h : Next context p q) (htwins : Twins context more more' p p') :
    ∃ q', Next context p' q' ∧ Twins context more more' q q' := by
  cases htwins with
  | @intro s tasks input hlines hinput hreads =>
    have hleft := hreads.next h
    cases h with
    | @intro task later started _ s' h =>
      obtain ⟨left, hlines', hanswers, hinput', hadvance⟩ :=
        advance_parted context task hlines hinput hreads.reads_le more'
      rw [h] at hinput' hadvance
      exact ⟨_, .intro hadvance, .intro hlines' hinput' (hleft.mono hanswers)⟩

theorem Fails.twins {error : RuntimeError} (h : Fails context p error s)
    (htwins : Twins context more more' p p') :
    ∃ t, Fails context p' error t ∧ Parted more more' s t := by
  cases htwins with
  | @intro s tasks input hlines hinput hreads =>
    cases h with
    | @intro task later _ s' error h =>
      obtain ⟨left, hlines', _, hinput', hadvance⟩ :=
        advance_parted context task hlines hinput hreads.reads_le more'
      rw [h] at hinput' hadvance
      exact ⟨_, .intro hadvance, left, hlines', hinput', rfl⟩

theorem Reaches.twins (h : Reaches context p q) (htwins : Twins context more more' p p') :
    ∃ q', Reaches context p' q' ∧ Twins context more more' q q' := by
  obtain ⟨n, hleads⟩ := h
  induction hleads generalizing p' with
  | refl => exact ⟨p', ⟨0, .refl p'⟩, htwins⟩
  | head hnext _ ih =>
    obtain ⟨r', hnext', hr'⟩ := hnext.twins htwins
    obtain ⟨q', hreaches', hq'⟩ := ih hr'
    exact ⟨q', (Reaches.single hnext').trans hreaches', hq'⟩

/-- A program comes to the same with other input after the cut. -/
theorem Settles.parted {tokens : List Token} {result : Except RuntimeError Unit} {input : Input}
    (h : Settles context tokens s result t) (hlines : Input.WholeLines input.bytes)
    (hinput : s.input = input.followedBy more)
    (hreads : ∀ main s', load context tokens s = .ok main s' →
      ReadsAtMost context ⟨s', [.sequence main]⟩ input.answers) (more' : List UInt8) :
    ∃ t', Settles context tokens { s with input := input.followedBy more' } result t' ∧
      Parted more more' t t' := by
  have hload : ∀ {main s'}, load context tokens s = .ok main s' →
      load context tokens { s with input := input.followedBy more' } =
        .ok main { s' with input := input.followedBy more' } ∧
      Twins context more more' ⟨s', [.sequence main]⟩
        ⟨{ s' with input := input.followedBy more' }, [.sequence main]⟩ := by
    intro main s' hload
    have hstreams := (detached_load context tokens s).streams_eq
    have hparted : load context tokens { s with input := input.followedBy more' } = _ :=
      detached_load context tokens s (input.followedBy more') s.output
    rw [hload] at hstreams hparted
    obtain ⟨hinput', houtput⟩ := hstreams
    refine ⟨?_, .intro hlines (hinput'.trans hinput) (hreads main s' hload)⟩
    rw [hparted, ← houtput]
    rfl
  cases h with
  | refused herror => exact ⟨_, .refused herror, input, hlines, hinput, rfl⟩
  | done hloaded hreaches =>
    obtain ⟨hloaded', htwins⟩ := hload hloaded
    obtain ⟨_, hreaches', hend⟩ := hreaches.twins htwins
    cases hend with
    | intro hlines' hinput' _ => exact ⟨_, .done hloaded' hreaches', _, hlines', hinput', rfl⟩
  | failed hloaded hreaches hfails =>
    obtain ⟨hloaded', htwins⟩ := hload hloaded
    obtain ⟨q', hreaches', hend⟩ := hreaches.twins htwins
    obtain ⟨_, hfails', left, hlines', hinput', rfl⟩ := hfails.twins hend
    exact ⟨_, .failed hloaded' hreaches' hfails', left, hlines', hinput', rfl⟩

theorem endsAlike_parted : EndsAlike (Parted more more') context context where
  stack_eq hs := by
    obtain ⟨_, _, _, rfl⟩ := hs
    rfl
  flush {s t} hs := by
    obtain ⟨input, hlines, hinput, rfl⟩ := hs
    rw [withOutput_eq, withOutput_eq]
    cases s.output.flush.1 with
    | ok _ => exact .ok rfl ⟨input, hlines, hinput, rfl⟩
    | error failure => exact .error rfl ⟨input, hlines, hinput, rfl⟩
  record {s t} event hs := by
    obtain ⟨input, hlines, hinput, rfl⟩ := hs
    refine ⟨input, hlines, by rwa [State.record_input], ?_⟩
    have hrecord := record_withStreams s context event (input.followedBy more') s.output
    refine hrecord.trans ?_
    rw [State.withStreams, ← State.record_output s context event]

end Runs

/-- A run does not depend on input that it does not read.  Let some bytes be whole lines, and
take a run that comes to an end on these bytes and others after them, and that reads no more
characters than an input of these bytes alone can be read before its end is met.  With any
other bytes after the lines, the run comes to an end and has the same outcome: the same
result, or the same error at the same position, and the same stack, variables, functions,
output, depth and log.  What is left of the input differs in those other bytes only. -/
theorem unread_input_is_irrelevant (context : Context) {fuel : Nat} (tokens : List Token)
    (output : Sink) {lines : List UInt8} (hlines : Input.WholeLines lines)
    (more more' : List UInt8)
    (hends : ∀ s, run context fuel tokens (.start (lines ++ more) output) ≠ .error .outOfFuel s)
    (hreads : ∀ main s, load context tokens (.start (lines ++ more) output) = .ok main s →
      ReadsAtMost context ⟨s, [.sequence main]⟩ (Input.ofBytes lines).answers) :
    ∃ fuel', Agree (Parted more more') Eq (fun _ => False) Eq
      (run context fuel tokens (.start (lines ++ more) output))
      (run context fuel' tokens (.start (lines ++ more') output)) := by
  obtain ⟨result, t, hsettles, hrun⟩ := exists_settles_of_run hends
  have hinput : (State.start (lines ++ more) output).input =
      (Input.ofBytes lines).followedBy more := rfl
  obtain ⟨t', hsettles', hparted⟩ := hsettles.parted hlines hinput hreads more'
  obtain ⟨fuel', hrun'⟩ := hsettles'.exists_run
  refine ⟨fuel', ?_⟩
  rw [hrun, show run context fuel' tokens (.start (lines ++ more') output) = _ from hrun']
  exact endsAlike_parted.agree_conclude result hparted

/-- Two characters are read, those of the one line that is there.  It makes no difference that
what comes after the line is a text in one run and none in the other. -/
theorem unread_input_is_irrelevant_line :
    ∃ tokens s t fuel, tokenize "^^%" = .ok tokens ∧
      run { source := "^^%" } 0 tokens (.start [97, 10, 98] .unbounded) = .ok () s ∧
      run { source := "^^%" } fuel tokens (.start [97, 10, 255] .unbounded) = .ok () t ∧
      Parted [98] [255] s t := by
  obtain ⟨tokens, htokens, hread, hreads⟩ : ∃ tokens, tokenize "^^%" = .ok tokens ∧
      (match run { source := "^^%" } 0 tokens (.start [97, 10, 98] .unbounded) with
        | .ok () _ => true
        | _ => false) = true ∧
      ∀ main s, load { source := "^^%" } tokens (.start ([97, 10] ++ [98]) .unbounded) =
          .ok main s →
        ReadsAtMost { source := "^^%" } ⟨s, [.sequence main]⟩
          (Input.ofBytes [97, 10]).answers := by
    refine ⟨[⟨.caret, .span 0 1, ⟨1, 1⟩⟩, ⟨.caret, .span 1 1, ⟨1, 2⟩⟩,
      ⟨.percent, .span 2 1, ⟨1, 3⟩⟩], by decide +kernel, by decide +kernel, ?_⟩
    intro main s hload
    cases hload
    have hfirst : (Input.ofBytes [97, 10]).read.1 ≠ .ok none := by decide +kernel
    have hsecond : (Input.ofBytes [97, 10]).read.2.read.1 ≠ .ok none := by decide +kernel
    have hanswers : 2 ≤ (Input.ofBytes [97, 10]).answers := by
      rw [Input.answers_of_read hfirst, Input.answers_of_read hsecond]
      omega
    refine readsAtMost_of_next 1 (.intro rfl) hanswers ?_
    refine readsAtMost_of_next 0 (.intro rfl) (by decide +kernel) ?_
    refine readsAtMost_of_next 0 (.intro rfl) (by decide +kernel) ?_
    refine readsAtMost_of_next 0 (.intro rfl) (by decide +kernel) ?_
    exact readsAtMost_done _
  split at hread
  · rename_i s hrun
    have hrun₀ : run { source := "^^%" } 0 tokens (.start ([97, 10] ++ [98]) .unbounded) =
      .ok () s := hrun
    have hends : ∀ t, run { source := "^^%" } 0 tokens (.start ([97, 10] ++ [98]) .unbounded) ≠
        .error .outOfFuel t := by
      intro t hfuel
      rw [hrun₀] at hfuel
      cases hfuel
    obtain ⟨fuel, hagree⟩ := unread_input_is_irrelevant { source := "^^%" } tokens .unbounded
      (.inr rfl) [98] [255] hends hreads
    rw [hrun₀] at hagree
    cases hrun' : run { source := "^^%" } fuel tokens (.start ([97, 10] ++ [255]) .unbounded) with
    | error halt t =>
      rw [hrun'] at hagree
      cases hagree
    | ok _ t =>
      rw [hrun'] at hagree
      cases hagree with
      | ok _ hparted => exact ⟨tokens, s, t, fuel, htokens, hrun, hrun', hparted⟩
  · contradiction

end Machine

end Sigil
