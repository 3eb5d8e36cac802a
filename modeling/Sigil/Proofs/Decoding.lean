import Sigil.Interpreter
import Sigil.Proofs.Capacity

/-!
# Output is text

A run writes texts, so its output is the UTF-8 form of a text at every moment, and the text
that is read back from it is this text.

* Reading back.  `Utf8.decodeFrom_utf8Encode` goes through the characters of a text, and
  `Utf8.decode_toUTF8` says that the text is read back from its UTF-8 form, without a
  replacement character.
* Running.  A step adds a text to the output (`Comes.written`), so the states that a run comes
  by differ from the first one by a text (`Visits.written`), and a run leaves what the last of
  them has written (`exists_visits_of_run`).
* Texts that are run.  `interpret_of_conclude` and `interpret_of_more_fuel` carry what is known
  of the run of the tokens over to the text, and `interpretText_eq_done_iff` says when the
  output is read back.

The main result is `output_is_text`.
-/

namespace Sigil

/-! ## Reading back -/

namespace Utf8

/-- Where the form of a character begins, this character is read. -/
theorem utf8DecodeChar?_append (front : ByteArray) (c : Char) (text : List Char) :
    (front ++ (c :: text).utf8Encode).utf8DecodeChar? front.size = some c := by
  rw [ByteArray.utf8DecodeChar?_eq_utf8DecodeChar?_extract,
    ByteArray.extract_append_eq_right rfl ByteArray.size_append,
    List.utf8DecodeChar?_utf8Encode_cons]

theorem size_utf8Encode_concat (text : List Char) (c : Char) :
    (text ++ [c]).utf8Encode.size = text.utf8Encode.size + c.utf8Size := by
  rw [List.utf8Encode_append, ByteArray.size_append, List.utf8Encode_singleton,
    List.size_toByteArray, String.length_utf8EncodeChar]

/-- Behind some characters of a text, the others are read. -/
theorem decodeFrom_utf8Encode (before after : List Char) {bytes : ByteArray}
    (hbytes : bytes = (before ++ after).utf8Encode) :
    decodeFrom bytes before.utf8Encode.size (String.ofList before) =
      String.ofList (before ++ after) := by
  -- The bytes stay the same while the characters go over to the front, one by one.
  induction after generalizing before with
  | nil =>
    have hend : ¬ before.utf8Encode.size < bytes.size := by
      rw [hbytes, List.append_nil]
      exact Nat.lt_irrefl _
    rw [decodeFrom, dif_neg hend, List.append_nil]
  | cons c after ih =>
    have hchar : bytes.utf8DecodeChar? before.utf8Encode.size = some c := by
      rw [hbytes, List.utf8Encode_append, utf8DecodeChar?_append]
    have hconcat : before ++ c :: after = before ++ [c] ++ after := List.append_cons ..
    have hlt : before.utf8Encode.size < bytes.size := by
      have hpos := c.utf8Size_pos
      rw [hbytes, hconcat, List.utf8Encode_append, ByteArray.size_append, size_utf8Encode_concat]
      omega
    rw [decodeFrom, dif_pos hlt]
    split
    · rename_i c' hc'
      obtain rfl : c = c' := Option.some.inj (hchar.symm.trans hc')
      rw [hconcat, ← ih (before ++ [c]) (hconcat ▸ hbytes), size_utf8Encode_concat,
        String.ofList_append, ← String.append_singleton]
      rfl
    · rename_i hnone
      rw [hchar] at hnone
      cases hnone

/-- A text is read back from its UTF-8 form. -/
theorem decode_toUTF8 (text : String) : decode text.toUTF8 = text := by
  have hbytes : text.toUTF8 = ([] ++ text.toList).utf8Encode := by
    rw [String.toUTF8_eq_toByteArray, List.nil_append, ← String.toByteArray_ofList,
      String.ofList_toList]
  have h := decodeFrom_utf8Encode [] text.toList hbytes
  rw [List.nil_append, String.ofList_toList] at h
  exact h

end Utf8

/-! ## Running -/

/-- Whether the bytes that were written between two moments are the UTF-8 form of a text. -/
def Sink.GrownByText (before after : Sink) : Prop :=
  ∃ more : ByteArray, more.IsValidUTF8 ∧ after.written = before.written ++ more

namespace Machine

variable {context : Context} {s s' t : State}

/-- A run only adds a text to what was written, wherever it has come to. -/
theorem Visits.written {start : Point} (h : Visits context start t)
    (hsink : start.state.output.Reliable) :
    ∃ more : String, t.output.written = start.state.output.written ++ more.toUTF8 := by
  cases h with
  | reached hreaches => exact (hreaches.written hsink).2
  | failed hreaches hfails =>
    obtain ⟨hreliable, before, hbefore⟩ := hreaches.written hsink
    obtain ⟨_, more, hmore⟩ := (Comes.failed hfails).written hreliable
    refine ⟨before ++ more, ?_⟩
    rw [hmore, hbefore, ByteArray.append_assoc]
    rfl

/-- The same in terms of bytes. -/
theorem Visits.grownByText {start : Point} (h : Visits context start t)
    (hsink : start.state.output.Reliable) : start.state.output.GrownByText t.output := by
  obtain ⟨more, hmore⟩ := h.written hsink
  exact ⟨more.toUTF8, more.isValidUTF8, hmore⟩

/-- What a run has written in the end was written when its program was over. -/
theorem exists_visits_of_run {tokens main : List Token}
    (hload : load context tokens s = .ok main s') (fuel : Nat) :
    ∃ t, Visits context ⟨s', [.sequence main]⟩ t ∧
      printed (run context fuel tokens s) = t.output.written := by
  obtain ⟨t, hvisits, ht⟩ := visits_execute context fuel main s'
  have hprinted : printed (execute context fuel main s') = t.output.written :=
    congrArg (·.output.written) ht
  refine ⟨t, hvisits, ?_⟩
  rw [← hprinted, run_of_load hload]
  match execute context fuel main s' with
  | .ok () t' => exact printed_conclude context (.ok ()) t'
  | .error (.failed error) t' => exact printed_conclude context (.error error) t'
  | .error .outOfFuel t' => rfl

/-- A whole run adds a text to what was written, however it ends. -/
theorem grownByText_run (context : Context) (fuel : Nat) (tokens : List Token) {s : State}
    (hsink : s.output.Reliable) :
    s.output.GrownByText (stateAfter (run context fuel tokens s)).output := by
  obtain ⟨program, _, hload⟩ | ⟨error, herror, _⟩ := load_cases context tokens s
  · obtain ⟨t, hvisits, hprinted⟩ := exists_visits_of_run hload fuel
    have houtput : ((s.install program).record context (hoistedEvent program)).output =
        s.output := by
      rw [State.record_output]
      rfl
    obtain ⟨more, hvalid, hmore⟩ := hvisits.grownByText (houtput ▸ hsink)
    rw [show _ = s.output from houtput] at hmore
    exact ⟨more, hvalid, hprinted.trans hmore⟩
  · refine ⟨.empty, ByteArray.isValidUTF8_empty, ?_⟩
    rw [ByteArray.append_empty, run_of_refused herror]
    exact printed_conclude context (.error error) s

end Machine

/-! ## Texts that are run -/

/-- How a text was run, in terms of what its program came to. -/
def Outcome.ofResult : Except RuntimeError Unit → Outcome
  | .ok () => .done
  | .error error => .failed (.runtime error)

section Interpret

open Machine

variable {context : Context} {fuel : Nat} {tokens : List Token} {input : List UInt8}
  {output : Sink}

theorem state_interpret (h : tokenize context.source = .ok tokens) (fuel : Nat)
    (input : List UInt8) (output : Sink) :
    (interpret context fuel input output).2 =
      stateAfter (run context fuel tokens (.start input output)) := by
  simp only [interpret, h]
  match run context fuel tokens (.start input output) with
  | .ok () s => rfl
  | .error (.failed error) s => rfl
  | .error .outOfFuel s => rfl

/-- If the last flush succeeds, a text is run as its program comes out. -/
theorem interpret_of_conclude {result : Except RuntimeError Unit} {s : State}
    (htokens : tokenize context.source = .ok tokens)
    (hrun : run context fuel tokens (.start input output) = conclude context result s)
    (hflush : s.output.flush.1 = .ok ()) :
    ∃ t, interpret context fuel input output = (.ofResult result, t) ∧
      t.output.written = s.output.written ∧ t.stack = s.stack := by
  obtain ⟨t, hconclude⟩ := conclude_of_flush context result hflush
  have hwritten := printed_conclude context result s
  obtain ⟨_, _, hafter⟩ := stateAfter_conclude context result s
  have hstack := congrArg State.stack hafter
  simp only [interpret, htokens, hrun]
  rw [printed] at hwritten
  rw [hconclude] at hwritten hstack ⊢
  cases result with
  | ok _ => exact ⟨t, rfl, hwritten, hstack⟩
  | error error => exact ⟨t, rfl, hwritten, hstack⟩

/-- A text whose run comes to an end is run in the same way with more fuel. -/
theorem interpret_of_more_fuel {fuel' : Nat} (hfuel : fuel ≤ fuel')
    (hends : (interpret context fuel input output).1 ≠ .outOfFuel) :
    interpret context fuel' input output = interpret context fuel input output := by
  cases htokens : tokenize context.source with
  | error error => simp only [interpret, htokens]
  | ok tokens =>
    have hrun : ∀ s, run context fuel tokens (.start input output) ≠ .error .outOfFuel s := by
      intro s h
      simp only [interpret, htokens, h] at hends
      contradiction
    simp only [interpret, htokens, run_of_more_fuel hfuel hrun]

/-- A text is no program, or is run, and in any case adds a text to what was written. -/
theorem grownByText_interpret (context : Context) (fuel : Nat) (input : List UInt8)
    (hsink : output.Reliable) :
    output.GrownByText (interpret context fuel input output).2.output := by
  cases htokens : tokenize context.source with
  | error error =>
    simp only [interpret, htokens]
    exact ⟨.empty, ByteArray.isValidUTF8_empty, ByteArray.append_empty.symm⟩
  | ok tokens =>
    rw [state_interpret htokens]
    exact grownByText_run context fuel tokens (s := .start input output) hsink

end Interpret

theorem interpretText_outcome (fuel : Nat) (source input : String) :
    (interpretText fuel source input).1 =
      (interpret { source } fuel input.toUTF8.data.toList .unbounded).1 := by
  rw [interpretText]
  split
  · rename_i h
    rw [h]
  · rename_i h
    rw [h]

/-- Nothing is read back if the run fails. -/
theorem interpretText_of_failed {fuel : Nat} {source input : String} {error : Error}
    (h : (interpret { source } fuel input.toUTF8.data.toList .unbounded).1 = .failed error) :
    interpretText fuel source input = (.failed error, "") := by
  rw [interpretText]
  split
  · rename_i hdone
    rw [hdone] at h
    cases h
  · rename_i hresult
    rw [hresult] at h
    exact congrArg (·, "") h

/-- A text is given if and only if the run comes to its end, and then it is the text whose
UTF-8 form was written. -/
theorem interpretText_eq_done_iff (fuel : Nat) (source input text : String) :
    interpretText fuel source input = (.done, text) ↔
      ∃ s, interpret { source } fuel input.toUTF8.data.toList .unbounded = (.done, s) ∧
        s.output.written = text.toUTF8 := by
  obtain ⟨more, hvalid, hmore⟩ :=
    grownByText_interpret { source } fuel input.toUTF8.data.toList Sink.reliable_unbounded
  have hwritten := hmore.trans ByteArray.empty_append
  -- What was written is the form of one text, and this one is read back.
  have hdecode : ∀ written, Utf8.decode more = written ↔ more = written.toUTF8 := by
    intro written
    constructor
    · rintro rfl
      exact congrArg String.toUTF8 (Utf8.decode_toUTF8 (.fromUTF8 more hvalid)).symm
    · rintro rfl
      exact Utf8.decode_toUTF8 written
  rw [interpretText]
  split
  · rename_i s hdone
    have hmore : s.output.written = more := by
      rw [← hwritten, hdone]
    rw [hdone, hmore]
    constructor
    · intro h
      cases h
      exact ⟨s, rfl, hmore.trans ((hdecode _).1 rfl)⟩
    · rintro ⟨s', h, hs'⟩
      cases h
      rw [(hdecode text).2 (hmore.symm.trans hs')]
  · rename_i outcome s hnot hresult
    rw [hresult]
    constructor
    · intro h
      cases h
      exact (hnot rfl).elim
    · rintro ⟨s', h, _⟩
      cases h
      exact (hnot rfl).elim

/-- What a run writes is a text, if the output never fails.  At every moment between two
tokens, and also where the program fails, the bytes that were written since the beginning are
UTF-8, and so they are when the run is over, whatever it came to.  So a text that is read back
from the output has lost nothing: it is given if and only if the run comes to its end, and its
UTF-8 form is what was written. -/
theorem output_is_text (context : Machine.Context) (input : List UInt8) {output : Sink}
    (houtput : output.Reliable) :
    (∀ tokens main start s, tokenize context.source = .ok tokens →
      Machine.load context tokens (.start input output) = .ok main start →
      Machine.Visits context ⟨start, [.sequence main]⟩ s → output.GrownByText s.output) ∧
    (∀ fuel, output.GrownByText (interpret context fuel input output).2.output) ∧
    ∀ fuel (source read : String),
      (interpretText fuel source read).1 =
        (interpret { source } fuel read.toUTF8.data.toList .unbounded).1 ∧
      ∀ text, interpretText fuel source read = (.done, text) ↔
        ∃ s, interpret { source } fuel read.toUTF8.data.toList .unbounded = (.done, s) ∧
          s.output.written = text.toUTF8 := by
  refine ⟨?_, ?_, ?_⟩
  · intro tokens main start s _ hload hvisits
    have hstart := (Machine.detached_load context tokens (.start input output)).streams_eq.2
    rw [hload] at hstart
    replace hstart : start.output = output := hstart
    have hgrown := hvisits.grownByText (hstart.symm ▸ houtput)
    rwa [hstart] at hgrown
  · intro fuel
    exact grownByText_interpret context fuel input houtput
  · intro fuel source read
    exact ⟨interpretText_outcome fuel source read, interpretText_eq_done_iff fuel source read⟩

/-- What was written before a division fails is a text, and without the division it is read
back. -/
theorem output_is_text_division :
    Sink.unbounded.Reliable ∧
      (∃ tokens main start s, tokenize "\"é\"955,1 0/" = .ok tokens ∧
        Machine.load { source := "\"é\"955,1 0/" } tokens (.start [] .unbounded) =
          .ok main start ∧
        Machine.Visits { source := "\"é\"955,1 0/" } ⟨start, [.sequence main]⟩ s ∧
        s.output.written = "éλ".toUTF8 ∧ Sink.unbounded.GrownByText s.output) ∧
      (interpretText 0 "\"é\"955,1 0/" "").1 =
        .failed (.runtime ⟨.divisionByZero, some ⟨1, 11⟩⟩) ∧
      interpretText 0 "\"é\"955," "" = (.done, "éλ") := by
  obtain ⟨hgrown, _, hread⟩ :=
    output_is_text { source := "\"é\"955,1 0/" } [] Sink.reliable_unbounded
  refine ⟨Sink.reliable_unbounded, ?_, ?_, ?_⟩
  · obtain ⟨tokens, htokens, hprogram, hexecute⟩ : ∃ tokens,
        tokenize "\"é\"955,1 0/" = .ok tokens ∧
        Program.ofTokens tokens = .ok ⟨tokens, ⟨#[]⟩, []⟩ ∧
        (Machine.printed (Machine.execute { source := "\"é\"955,1 0/" } 0 tokens
          ((Machine.State.start [] .unbounded).install ⟨tokens, ⟨#[]⟩, []⟩))).data =
            "éλ".toUTF8.data :=
      ⟨[⟨.literal, .span 1 2, ⟨1, 1⟩⟩, ⟨.number, .span 4 3, ⟨1, 4⟩⟩, ⟨.comma, .span 7 1, ⟨1, 7⟩⟩,
        ⟨.number, .span 8 1, ⟨1, 8⟩⟩, ⟨.number, .span 10 1, ⟨1, 10⟩⟩,
        ⟨.slash, .span 11 1, ⟨1, 11⟩⟩], by decide +kernel, rfl, by decide +kernel⟩
    have hload : Machine.load { source := "\"é\"955,1 0/" } tokens (.start [] .unbounded) =
        .ok tokens ((Machine.State.start [] .unbounded).install ⟨tokens, ⟨#[]⟩, []⟩) := by
      rw [Machine.load, hprogram]
      rfl
    obtain ⟨s, hvisits, hs⟩ := Machine.visits_execute { source := "\"é\"955,1 0/" } 0 tokens
      ((Machine.State.start [] .unbounded).install ⟨tokens, ⟨#[]⟩, []⟩)
    have hwritten : s.output.written = "éλ".toUTF8 := by
      rw [← ByteArray.ext hexecute, Machine.printed, hs]
    exact ⟨tokens, tokens, _, s, htokens, hload, hvisits, hwritten,
      hgrown tokens tokens _ s htokens hload hvisits⟩
  · exact (hread 0 _ "").1.trans (by decide +kernel)
  · have hdone : (interpret { source := "\"é\"955," } 0 [] .unbounded).1 = .done := by
      decide +kernel
    have hwritten : (interpret { source := "\"é\"955," } 0 [] .unbounded).2.output.written.data =
        "éλ".toUTF8.data := by
      decide +kernel
    exact ((hread 0 _ "").2 "éλ").2 ⟨_, Prod.ext hdone rfl, ByteArray.ext hwritten⟩

end Sigil
