import Sigil.Proofs.Limit
import Sigil.Proofs.Streaming

/-!
# Output without enough room

A run whose output goes to a sink with a bound is the same run as with room for everything,
until a token writes more than there is room for.  Then it ends at once, and the sink holds
as much of the output as fits.

* Sinks.  `Sink.cut` is what a sink with a bound holds of what was written to one without,
  and `Sink.write_cut_of_le` and `Sink.write_cut_of_lt` compare a write to the two.
* Steps.  `advance_cut` compares a step of the two runs.  Where the second fails because
  there is no room, the first `Overflows`.
* Runs.  Output is only ever added to, so there is one such step at most.
  `Leads.cut` and `Settles.cut` carry the comparison from one step to the end.
-/

namespace Sigil

/-! ## Sinks -/

namespace Sink

/-- An empty sink that holds `capacity` bytes. -/
def bounded (capacity : Nat) : Sink :=
  { unbounded with capacity? := some capacity }

/-- Whether a sink has room for everything, and its flushes do not fail. -/
structure Reliable (sink : Sink) : Prop where
  capacity?_eq : sink.capacity? = none
  goodFlushes?_eq : sink.goodFlushes? = none

/-- The sink that holds as much as there is room for of what was written. -/
def cut (sink : Sink) (capacity : Nat) : Sink :=
  { sink with written := sink.written.extract 0 capacity, capacity? := some capacity }

variable {sink : Sink} {capacity : Nat} {bytes : ByteArray}

theorem extract_of_size_le (h : bytes.size ≤ capacity) : bytes.extract 0 capacity = bytes := by
  have hsize : bytes.data.size ≤ capacity := h
  refine ByteArray.ext ?_
  rw [ByteArray.data_extract, Array.extract_eq_self_of_le hsize]

/-- If everything fits, only the bound is new. -/
theorem cut_of_size_le (h : sink.written.size ≤ capacity) :
    sink.cut capacity = { sink with capacity? := some capacity } := by
  rw [cut, extract_of_size_le h]

theorem reliable_unbounded : unbounded.Reliable :=
  ⟨rfl, rfl⟩

theorem Reliable.write_eq (h : sink.Reliable) (bytes : ByteArray) :
    sink.write bytes = (.ok (), { sink with written := sink.written ++ bytes }) := by
  rw [write, room?, h.capacity?_eq]
  rfl

theorem Reliable.write (h : sink.Reliable) (bytes : ByteArray) :
    (sink.write bytes).2.Reliable := by
  rw [h.write_eq]
  exact ⟨h.capacity?_eq, h.goodFlushes?_eq⟩

theorem Reliable.flush (h : sink.Reliable) : sink.flush.2.Reliable :=
  ⟨h.capacity?_eq, h.goodFlushes?_eq⟩

theorem Reliable.flush_eq_ok (h : sink.Reliable) : sink.flush.1 = .ok () := by
  rw [flush_of_goodFlushes? h.goodFlushes?_eq]

/-- What is written and what fits of it, if there was room so far. -/
theorem extract_append_of_size_le (h : sink.written.size ≤ capacity) (bytes : ByteArray) :
    (sink.written ++ bytes).extract 0 capacity =
      sink.written ++ bytes.extract 0 (capacity - sink.written.size) := by
  rw [ByteArray.extract_append, extract_of_size_le h, Nat.zero_sub]

/-- A write for which there is room. -/
theorem write_cut_of_le (hsink : sink.Reliable) (hfits : sink.written.size ≤ capacity)
    (h : (sink.write bytes).2.written.size ≤ capacity) :
    (sink.cut capacity).write bytes = (.ok (), (sink.write bytes).2.cut capacity) := by
  rw [hsink.write_eq] at h ⊢
  rw [cut_of_size_le hfits, cut_of_size_le h, Sink.write]
  have hroom : bytes.size ≤ capacity - sink.written.size := by
    rw [ByteArray.size_append] at h
    omega
  simp only [room?, Option.map_some, if_pos hroom]

/-- A write for which there is not enough room stores what fits, and fails. -/
theorem write_cut_of_lt (hsink : sink.Reliable) (hfits : sink.written.size ≤ capacity)
    (h : capacity < (sink.write bytes).2.written.size) :
    (sink.cut capacity).write bytes =
      (.error .shortWrite, (sink.write bytes).2.cut capacity) := by
  rw [hsink.write_eq] at h ⊢
  rw [cut_of_size_le hfits, cut, Sink.write]
  have hroom : ¬ bytes.size ≤ capacity - sink.written.size := by
    rw [ByteArray.size_append] at h
    omega
  simp only [room?, Option.map_some, if_neg hroom, extract_append_of_size_le hfits]

end Sink

namespace Machine

/-! ## Steps -/

/-- The state with output that holds as much as there is room for. -/
def State.cut (s : State) (capacity : Nat) : State :=
  s.withStreams s.input (s.output.cut capacity)

/-- The point with output that holds as much as there is room for. -/
def Point.cut (p : Point) (capacity : Nat) : Point :=
  ⟨p.state.cut capacity, p.tasks⟩

section Steps

variable {context : Context} {capacity : Nat} {s t : State} {p q : Point}

theorem DetachedAt.cut {ε α : Type} {work : EStateM ε State α} (h : DetachedAt work s)
    (capacity : Nat) : work (s.cut capacity) = mapState (·.cut capacity) (work s) := by
  obtain ⟨hinput, houtput⟩ := h.streams_eq
  rw [State.cut, h]
  cases hwork : work s with
  | ok a s' =>
    rw [hwork, stateAfter_ok] at hinput houtput
    simp only [mapState, State.cut, hinput, houtput]
  | error e s' =>
    rw [hwork, stateAfter_error] at hinput houtput
    simp only [mapState, State.cut, hinput, houtput]

/-- A step with room for everything and the step with a bound.  They are the same, and then
there is room for what has been written, or a token has written more than that. -/
theorem advance_cut (context : Context) (task : Task) (hsink : s.output.Reliable)
    (hfits : s.output.written.size ≤ capacity) :
    ((stateAfter (task.advance context s)).output.written.size ≤ capacity ∧
      task.advance context (s.cut capacity) =
        mapState (·.cut capacity) (task.advance context s)) ∨
    ∃ token tokens rest output, task = .sequence (token :: tokens) ∧
      task.advance context s =
        .ok [.sequence tokens] ((s.withStack rest).withStreams s.input output) ∧
      capacity < output.written.size ∧
      task.advance context (s.cut capacity) = .error ⟨.io .shortWrite, some token.position⟩
        (((s.withStack rest).withStreams s.input output).cut capacity) := by
  cases advance_streams context task s with
  | detached h =>
    refine .inl ⟨?_, h.cut capacity⟩
    rwa [h.streams_eq.2]
  | @writes token tokens text rest h =>
    -- The same text is written to both sinks, and only the one with a bound can refuse it.
    have hwritten : (s.output.write text.toUTF8).1 = .ok () := by
      rw [hsink.write_eq]
    have hadvance := h s.input s.output
    have hcut := h s.input (s.output.cut capacity)
    rw [hwritten] at hadvance
    by_cases hroom : (s.output.write text.toUTF8).2.written.size ≤ capacity
    · refine .inl ⟨?_, ?_⟩
      · rw [show (Task.sequence (token :: tokens)).advance context s = _ from hadvance]
        exact hroom
      · rw [Sink.write_cut_of_le hsink hfits hroom] at hcut
        rw [show (Task.sequence (token :: tokens)).advance context s = _ from hadvance]
        exact hcut
    · rw [Sink.write_cut_of_lt hsink hfits (Nat.lt_of_not_le hroom)] at hcut
      exact .inr ⟨token, tokens, rest, _, rfl, hadvance, Nat.lt_of_not_le hroom, hcut⟩
  | reads hkind =>
    have hflush : s.output.flush.1 = .ok () := by
      exact hsink.flush_eq_ok
    have hcut : (s.cut capacity).output.flush.1 = .ok () := hflush
    rw [advance_of_flush hkind hflush, advance_of_flush hkind hcut]
    have hread : (s.cut capacity).input.read = s.input.read := rfl
    rw [hread]
    cases s.input.read.1 with
    | ok c? => exact .inl ⟨hfits, rfl⟩
    | error failure => exact .inl ⟨hfits, rfl⟩

/-- Whether a token writes more than there is room for, while there was room for what had
been written before.  With a bound the token fails. -/
structure Overflows (context : Context) (capacity : Nat) (p : Point) (token : Token)
    (q : Point) : Prop where
  begins : ∃ tokens later, p.tasks = .sequence (token :: tokens) :: later
  next : Next context p q
  fits : p.state.output.written.size ≤ capacity
  exceeds : capacity < q.state.output.written.size
  input_eq : q.state.input = p.state.input
  store_eq : q.state.store = p.state.store
  fails : Fails context (p.cut capacity) ⟨.io .shortWrite, some token.position⟩
    (q.state.cut capacity)

/-- A step that is taken with room for everything is also taken with a bound, unless there
is not enough room. -/
theorem Next.cut (h : Next context p q) (hsink : p.state.output.Reliable)
    (hfits : p.state.output.written.size ≤ capacity) :
    (q.state.output.written.size ≤ capacity ∧ Next context (p.cut capacity) (q.cut capacity)) ∨
      ∃ token, Overflows context capacity p token q := by
  cases h with
  | @intro task later left s s' h =>
    obtain ⟨hroom, hcut⟩ | ⟨token, tokens, rest, output, rfl, hadvance, hexceeds, hcut⟩ :=
      advance_cut context task hsink hfits
    · rw [h] at hroom hcut
      exact .inl ⟨hroom, .intro hcut⟩
    · rw [h] at hadvance
      cases hadvance
      exact .inr ⟨token, ⟨tokens, later, rfl⟩, .intro h, hfits, hexceeds, rfl, rfl, .intro hcut⟩

/-- A step that fails with room for everything fails with a bound, and in the same way. -/
theorem Fails.cut {error : RuntimeError} (h : Fails context p error t)
    (hsink : p.state.output.Reliable) (hfits : p.state.output.written.size ≤ capacity) :
    t.output.written.size ≤ capacity ∧
      Fails context (p.cut capacity) error (t.cut capacity) := by
  cases h with
  | @intro task later s s' error h =>
    obtain ⟨hroom, hcut⟩ | ⟨token, tokens, rest, output, rfl, hadvance, _⟩ :=
      advance_cut context task hsink hfits
    · rw [h] at hroom hcut
      exact ⟨hroom, .intro hcut⟩
    · rw [h] at hadvance
      cases hadvance

/-- A step leaves a sink reliable, and only adds a text to what was written. -/
theorem Comes.written (h : Comes context p t) (hsink : p.state.output.Reliable) :
    t.output.Reliable ∧
      ∃ more : String, t.output.written = p.state.output.written ++ more.toUTF8 := by
  obtain ⟨task, later, _, rfl⟩ := h.exists_task
  obtain houtput | houtput | ⟨text, houtput⟩ := output_advance context task p.state
  · rw [houtput]
    exact ⟨hsink, "", ByteArray.append_empty.symm⟩
  · rw [houtput]
    exact ⟨hsink.flush, "", ByteArray.append_empty.symm⟩
  · rw [houtput]
    refine ⟨hsink.write text.toUTF8, text, ?_⟩
    rw [hsink.write_eq]

end Steps

/-! ## Runs -/

section Runs

variable {context : Context} {capacity : Nat} {s t : State} {p q : Point}

/-- Any number of steps only add a text to what was written. -/
theorem Reaches.written (h : Reaches context p q) (hsink : p.state.output.Reliable) :
    q.state.output.Reliable ∧
      ∃ more : String, q.state.output.written = p.state.output.written ++ more.toUTF8 := by
  refine Reaches.invariant (P := fun q => q.state.output.Reliable ∧
    ∃ more : String, q.state.output.written = p.state.output.written ++ more.toUTF8) ?_ ?_ h
  · intro q r ⟨hreliable, before, hbefore⟩ hnext
    obtain ⟨hreliable', more, hmore⟩ := (Comes.next hnext).written hreliable
    refine ⟨hreliable', before ++ more, ?_⟩
    rw [hmore, hbefore, ByteArray.append_assoc]
    rfl
  · exact ⟨hsink, "", ByteArray.append_empty.symm⟩

/-- Steps that are taken with room for everything are also taken with a bound, up to the
first for which there is not enough room. -/
theorem Leads.cut {n : Nat} (h : Leads context n p q) (hsink : p.state.output.Reliable)
    (hfits : p.state.output.written.size ≤ capacity) :
    (q.state.output.written.size ≤ capacity ∧
      Reaches context (p.cut capacity) (q.cut capacity)) ∨
    ∃ r token r', Reaches context p r ∧ Reaches context (p.cut capacity) (r.cut capacity) ∧
      Overflows context capacity r token r' ∧ Reaches context r' q := by
  -- The invariant is that everything fits so far; the first step that breaks it ends the
  -- comparison, and the steps behind it are those of the first run alone.
  induction h with
  | refl p => exact .inl ⟨hfits, 0, .refl _⟩
  | @head n p p' q hnext hlater ih =>
    obtain ⟨hroom, hcut⟩ | ⟨token, hoverflows⟩ := hnext.cut hsink hfits
    · obtain ⟨hend, hreaches⟩ | ⟨r, token, r', hr, hrcut, hoverflows, hr'⟩ :=
        ih ((Comes.next hnext).written hsink).1 hroom
      · exact .inl ⟨hend, (Reaches.single hcut).trans hreaches⟩
      · exact .inr ⟨r, token, r', (Reaches.single hnext).trans hr,
          (Reaches.single hcut).trans hrcut, hoverflows, hr'⟩
    · exact .inr ⟨p, token, p', ⟨0, .refl p⟩, ⟨0, .refl _⟩, hoverflows, n, hlater⟩

/-- Whether a program with so much output is cut off by a bound: with room for everything
it comes to a token that writes too much, and with a bound it fails there. -/
inductive CutOff (context : Context) (capacity : Nat) (tokens : List Token) (s : State)
    (output : ByteArray) : Prop where
  | intro {main : List Token} {s' : State} {p q : Point} {token : Token} {more : ByteArray}
      (hload : load context tokens s = .ok main s')
      (hreaches : Reaches context ⟨s', [.sequence main]⟩ p)
      (hoverflows : Overflows context capacity p token q)
      (houtput : output = q.state.output.written ++ more)
      (hsettles : Settles context tokens (s.cut capacity)
        (.error ⟨.io .shortWrite, some token.position⟩)
        ({ q.state with depth := s'.depth }.cut capacity))

theorem load_cut {tokens main : List Token} (hload : load context tokens s = .ok main t)
    (capacity : Nat) :
    t.output = s.output ∧ load context tokens (s.cut capacity) = .ok main (t.cut capacity) := by
  have hstreams := (detached_load context tokens s).streams_eq
  have hcut := (detached_load context tokens s).cut capacity
  rw [hload] at hstreams hcut
  exact ⟨hstreams.2, hcut⟩

/-- What a program comes to with a bound on its output: the same, if there is room for all
of the output, and otherwise it is cut off. -/
theorem Settles.cut {tokens : List Token} {result : Except RuntimeError Unit}
    (h : Settles context tokens s result t) (hsink : s.output.Reliable)
    (hfits : s.output.written.size ≤ capacity) :
    (t.output.written.size ≤ capacity ∧
      Settles context tokens (s.cut capacity) result (t.cut capacity)) ∨
    CutOff context capacity tokens s t.output.written := by
  cases h with
  | refused herror => exact .inl ⟨hfits, .refused herror⟩
  | @done main s' _ hload hreaches =>
    obtain ⟨houtput, hcut⟩ := load_cut hload capacity
    rw [← houtput] at hsink hfits
    obtain ⟨n, hleads⟩ := hreaches
    obtain ⟨hend, hreaches⟩ | ⟨p, token, q, hp, hpcut, hoverflows, hq⟩ := hleads.cut hsink hfits
    · exact .inl ⟨hend, .done hcut hreaches⟩
    · have hreliable := (hp.trans (.single hoverflows.next)).written hsink
      obtain ⟨_, more, hmore⟩ := hq.written hreliable.1
      exact .inr (.intro hload hp hoverflows hmore (.failed hcut hpcut hoverflows.fails))
  | @failed main s' t p error hload hreaches hfails =>
    obtain ⟨houtput, hcut⟩ := load_cut hload capacity
    rw [← houtput] at hsink hfits
    have hlast := (Comes.failed hfails).written (hreaches.written hsink).1
    obtain ⟨n, hleads⟩ := hreaches
    obtain ⟨hend, hreaches⟩ | ⟨r, token, q, hr, hrcut, hoverflows, hq⟩ := hleads.cut hsink hfits
    · obtain ⟨hroom, hfailscut⟩ := hfails.cut (Reaches.written ⟨n, hleads⟩ hsink).1 hend
      exact .inl ⟨hroom, .failed hcut hreaches hfailscut⟩
    · have hreliable := (hr.trans (.single hoverflows.next)).written hsink
      obtain ⟨_, more, hmore⟩ := hq.written hreliable.1
      obtain ⟨last, hlast⟩ := hlast.2
      have hall : t.output.written = q.state.output.written ++ (more.toUTF8 ++ last.toUTF8) := by
        rw [hlast, hmore, ByteArray.append_assoc]
      exact .inr (.intro hload hr hoverflows hall (.failed hcut hrcut hoverflows.fails))

/-! ## Whole runs -/

/-- What was written when some work was over. -/
def printed {ε α : Type} (result : EStateM.Result ε State α) : ByteArray :=
  (stateAfter result).output.written

/-- The end of a run writes nothing. -/
theorem printed_conclude (context : Context) (result : Except RuntimeError Unit) (s : State) :
    printed (conclude context result s) = s.output.written := by
  rw [printed, conclude.eq_def, bind_apply]
  cases hflush : s.output.flush.1 with
  | error failure =>
    rw [perform_of_error (withOutput_of_error hflush)]
    rfl
  | ok _ =>
    rw [perform_of_ok (withOutput_of_ok hflush)]
    have hrecord : ∀ event, ({ s with output := s.output.flush.2 }.record context
        event).output.written = s.output.written := by
      intro event
      rw [State.record_output]
      rfl
    cases result with
    | ok _ => exact hrecord (.finished s.stack)
    | error error => exact hrecord (.failed error)

theorem endsAlike_cut : EndsAlike (fun s t => t = s.cut capacity ∧
    s.output.written.size ≤ capacity) context context where
  stack_eq hs := by
    rw [hs.1]
    rfl
  flush {s t} hs := by
    obtain ⟨rfl, hfits⟩ := hs
    cases hflush : s.output.flush.1 with
    | ok _ =>
      have hcut : (s.cut capacity).output.flush.1 = .ok () := hflush
      rw [withOutput_of_ok hflush, withOutput_of_ok hcut]
      exact .ok rfl ⟨rfl, hfits⟩
    | error failure =>
      have hcut : (s.cut capacity).output.flush.1 = .error failure := hflush
      rw [withOutput_of_error hflush, withOutput_of_error hcut]
      exact .error rfl ⟨rfl, hfits⟩
  record {s t} event hs := by
    obtain ⟨rfl, hfits⟩ := hs
    refine ⟨?_, by rwa [State.record_output]⟩
    rw [State.cut, record_withStreams, State.cut, State.record_input, State.record_output]

end Runs

/-- Whether a token is the one that first writes more than there is room for: a run from
`start` comes to it in the state `s`, up to there everything fits, and with what the token
writes it does not. -/
def Crosses (context : Context) (capacity : Nat) (start : Point) (token : Token)
    (s : State) : Prop :=
  ∃ tokens later q, Reaches context start ⟨s, .sequence (token :: tokens) :: later⟩ ∧
    Next context ⟨s, .sequence (token :: tokens) :: later⟩ q ∧
    capacity < q.state.output.written.size ∧
    ∀ p, Reaches context start p →
      Reaches context p ⟨s, .sequence (token :: tokens) :: later⟩ →
      p.state.output.written.size ≤ capacity

section Whole

variable {context : Context} {capacity : Nat} {s t : State} {p q start : Point} {token : Token}

/-- Output is only added to, so a token that writes too much is the first one. -/
theorem Overflows.crosses (h : Overflows context capacity p token q)
    (hreaches : Reaches context start p) (hsink : start.state.output.Reliable) :
    Crosses context capacity start token p.state := by
  obtain ⟨s, tasks⟩ := p
  obtain ⟨tokens, later, rfl⟩ := h.begins
  refine ⟨tokens, later, q, hreaches, h.next, h.exceeds, ?_⟩
  intro r hr hlater
  obtain ⟨_, more, hmore⟩ := hlater.written (hr.written hsink).1
  have hfits : s.output.written.size ≤ capacity := h.fits
  rw [show s.output.written = _ from hmore, ByteArray.size_append] at hfits
  omega

theorem CutOff.lt_size {tokens : List Token} {output : ByteArray}
    (h : CutOff context capacity tokens s output) : capacity < output.size := by
  obtain ⟨_, _, hoverflows, rfl, _⟩ := h
  have := hoverflows.exceeds
  rw [ByteArray.size_append]
  omega

/-- A run that is cut off fails at the token that writes too much. -/
theorem CutOff.exists_run {tokens : List Token} {output : ByteArray}
    (h : CutOff context capacity tokens s output) (hsink : s.output.Reliable) :
    ∃ main s' token r t fuel, load context tokens s = .ok main s' ∧
      Crosses context capacity ⟨s', [.sequence main]⟩ token r ∧
      run context fuel tokens (s.cut capacity) =
        .error (.failed ⟨.io .shortWrite, some token.position⟩) t ∧
      t.output.written = output.extract 0 capacity ∧ t.input = r.input ∧ t.store = r.store := by
  obtain @⟨main, s', p, q, token, more, hload, hreaches, hoverflows, houtput, hsettles⟩ := h
  have hreliable : s'.output.Reliable := by
    rw [(load_cut hload capacity).1]
    exact hsink
  have hlast : q.state.output.Reliable :=
    ((hreaches.trans (.single hoverflows.next)).written hreliable).1
  obtain ⟨fuel, hrun⟩ := hsettles.exists_run
  obtain ⟨t, hconclude⟩ := conclude_of_goodFlushes? context
    ⟨.io .shortWrite, some token.position⟩
    (show ({ q.state with depth := s'.depth }.cut capacity).output.goodFlushes? = none from
      hlast.goodFlushes?_eq)
  have hprinted := printed_conclude context (.error ⟨.io .shortWrite, some token.position⟩)
    ({ q.state with depth := s'.depth }.cut capacity)
  obtain ⟨_, _, hafter⟩ := stateAfter_conclude context
    (.error ⟨.io .shortWrite, some token.position⟩)
    ({ q.state with depth := s'.depth }.cut capacity)
  rw [printed, hconclude, stateAfter_error] at hprinted
  rw [hconclude, stateAfter_error] at hafter
  refine ⟨main, s', token, p.state, t, fuel, hload, hoverflows.crosses hreaches hreliable,
    hrun.trans hconclude, ?_, ?_, ?_⟩
  · have hnone : more.extract (0 - q.state.output.written.size)
        (capacity - q.state.output.written.size) = .empty := by
      have := hoverflows.exceeds
      rw [ByteArray.extract_eq_empty_iff]
      omega
    rw [hprinted, houtput, ByteArray.extract_append, hnone, ByteArray.append_empty]
    rfl
  · rw [hafter, ← hoverflows.input_eq]
    rfl
  · rw [hafter, ← hoverflows.store_eq]
    rfl

end Whole

/-- A bound on the output cuts it off, and does nothing else.  Take a run that comes to an end
with room for all of its output, and flushes that do not fail.  If the output fits, the run
with the bound has the same outcome: the same result, or the same error at the same position,
and the same state up to the bound.  If it does not, the run with the bound fails at the
token that first writes more than there is room for.  The output is then as much as fits of
what the first run writes, and the input and the variables are those with which the first run
came to that token. -/
theorem bounded_output_is_cut_off (context : Context) {fuel : Nat} (tokens : List Token)
    (input : List UInt8) (capacity : Nat)
    (hends : ∀ s, run context fuel tokens (.start input .unbounded) ≠ .error .outOfFuel s) :
    ((printed (run context fuel tokens (.start input .unbounded))).size ≤ capacity →
      ∃ fuel', Agree
        (fun s t => t = { s with output := { s.output with capacity? := some capacity } })
        Eq (fun _ => False) Eq (run context fuel tokens (.start input .unbounded))
        (run context fuel' tokens (.start input (.bounded capacity)))) ∧
    (capacity < (printed (run context fuel tokens (.start input .unbounded))).size →
      ∃ main s₀ token s t fuel', load context tokens (.start input .unbounded) = .ok main s₀ ∧
        Crosses context capacity ⟨s₀, [.sequence main]⟩ token s ∧
        run context fuel' tokens (.start input (.bounded capacity)) =
          .error (.failed ⟨.io .shortWrite, some token.position⟩) t ∧
        t.output.written =
          (printed (run context fuel tokens (.start input .unbounded))).extract 0 capacity ∧
        t.input = s.input ∧ t.store = s.store) := by
  have hsink : (State.start input .unbounded).output.Reliable := ⟨rfl, rfl⟩
  have hcut : (State.start input .unbounded).cut capacity = .start input (.bounded capacity) := by
    have hempty : Sink.unbounded.cut capacity = .bounded capacity :=
      Sink.cut_of_size_le (Nat.zero_le capacity)
    rw [State.cut, show (State.start input .unbounded).output.cut capacity = _ from hempty]
    rfl
  obtain ⟨result, t, hsettles, hrun⟩ := exists_settles_of_run hends
  rw [hrun, printed_conclude, ← hcut]
  obtain ⟨hfits, hsettlescut⟩ | hcutOff := hsettles.cut hsink (Nat.zero_le capacity)
  · refine ⟨fun _ => ?_, fun hlt => absurd hfits (Nat.not_le_of_lt hlt)⟩
    obtain ⟨fuel', hruncut⟩ := hsettlescut.exists_run
    refine ⟨fuel', ?_⟩
    rw [hruncut]
    refine (endsAlike_cut.agree_conclude result ⟨rfl, hfits⟩).mono ?_ (fun _ _ => id)
      (fun _ _ _ => id)
    intro s t hs
    rw [hs.1, State.cut, Sink.cut_of_size_le hs.2]
    rfl
  · refine ⟨fun hle => absurd hle (Nat.not_le_of_lt hcutOff.lt_size), ?_⟩
    exact fun _ => hcutOff.exists_run hsink

/-- The second number that is printed does not fit as a whole. -/
theorem bounded_output_is_cut_off_digits :
    ∃ tokens s, tokenize "1.22.3." = .ok tokens ∧
      run { source := "1.22.3." } 0 tokens (.start [] .unbounded) = .ok () s ∧
      s.output.written.data = #[49, 50, 50, 51] ∧ ∃ (token : Token) (t : State) (fuel : Nat),
        run { source := "1.22.3." } fuel tokens (.start [] (.bounded 2)) =
          .error (.failed ⟨.io .shortWrite, some token.position⟩) t ∧
        t.output.written = s.output.written.extract 0 2 := by
  obtain ⟨tokens, htokens, hprinted⟩ : ∃ tokens, tokenize "1.22.3." = .ok tokens ∧
      (match run { source := "1.22.3." } 0 tokens (.start [] .unbounded) with
        | .ok () s => s.output.written.data == #[49, 50, 50, 51]
        | _ => false) = true :=
    ⟨[⟨.number, .span 0 1, ⟨1, 1⟩⟩, ⟨.dot, .span 1 1, ⟨1, 2⟩⟩, ⟨.number, .span 2 2, ⟨1, 3⟩⟩,
      ⟨.dot, .span 4 1, ⟨1, 5⟩⟩, ⟨.number, .span 5 1, ⟨1, 6⟩⟩, ⟨.dot, .span 6 1, ⟨1, 7⟩⟩],
      by decide +kernel, by decide +kernel⟩
  split at hprinted
  · rename_i s hrun
    have hdata : s.output.written.data = #[49, 50, 50, 51] := by simpa using hprinted
    have hsize : 2 < (printed (run { source := "1.22.3." } 0 tokens
        (.start [] .unbounded))).size := by
      rw [hrun]
      show 2 < s.output.written.data.size
      rw [hdata]
      decide
    obtain ⟨_, _, token, _, t, fuel, _, _, hfails, hcut, _⟩ :=
      (bounded_output_is_cut_off { source := "1.22.3." } tokens [] 2 (by simp [hrun])).2 hsize
    rw [hrun] at hcut
    exact ⟨tokens, s, htokens, hrun, hdata, token, t, fuel, hfails, hcut⟩
  · contradiction

end Machine

end Sigil
