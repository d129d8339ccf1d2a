import Monotype.Command.Check
import Monotype.Proofs.Spelling
import Mathlib.Data.List.TakeWhile

/-! What the loop over lines of input answers. A line is answered with what checking it by itself
prints, followed by the message about its fault, and a blank line with nothing. A fault that is told
to the user leaves nothing behind that the next line could see. The one fault that is not told, and
that ends the loop instead, is a number too long to be read. -/
namespace Monotype

/-! ### Lines that end the loop, and lines that do not -/

namespace Source

theorem parse_blank {line : String} (h : Text.allBlank line = true) :
    parse line = .error .unfinished := by
  have hdrop : line.toList.dropWhile Text.isBlank = [] := by
    rw [List.dropWhile_eq_nil_iff]
    exact List.all_eq_true.1 h
  have hlex : lex line = ⟨[], none⟩ := by
    rw [lex, lexFrom]
    split
    · rfl
    · simp_all
  simp only [parse, hlex]
  rfl

/-- A number of too many digits is refused. -/
theorem parse_number_tooLong {text : String} (h : (Terminal.number text).Spelled)
    (hlen : Text.maxDigits < text.length) : parse text = .error (.numberTooLong text.length) := by
  obtain ⟨htokens, -⟩ := lexes_nil.token h (.inr (by simp [Breaks])) .start 1
  rw [List.append_nil] at htokens
  obtain ⟨t, ht, hterminal⟩ := List.map_eq_singleton_iff.1 htokens
  have hnumber : t.kind = .number ∧ t.text = text := by
    obtain ⟨kind, text', position⟩ := t
    cases kind <;> cases hterminal
    exact ⟨rfl, rfl⟩
  have hstep : State.initial.step .build t = .error (.tooLong text.length) := by
    simp only [State.step, State.initial, hnumber.1, atom?, hnumber.2, readNumber, if_pos hlen]
    rfl
  have hlex : (lex text).tokens = [t] := ht
  simp only [parse, readTokens, hlex, State.read, hstep, Refusal.readError]

end Source

namespace Command

/-- Whether reading a line comes upon a number that is too long. -/
def overlong (line : String) : Bool :=
  match Source.parse line with
  | .error (.numberTooLong _) => true
  | _ => false

theorem overlong_iff {line : String} : overlong line = true ↔
    ∃ digits, Source.parse line = .error (.numberTooLong digits) := by
  unfold overlong
  split
  · rename_i digits h
    exact ⟨fun _ => ⟨digits, h⟩, fun _ => rfl⟩
  · rename_i h
    refine iff_of_false Bool.false_ne_true ?_
    rintro ⟨digits, hdigits⟩
    exact h digits hdigits

/-- What a line of input is answered with. -/
def answer (showConstraints : Bool) (line : String) : String :=
  if Text.allBlank line then ""
  else
    let c := check showConstraints line
    match c.outcome with
    | .ok () => c.output
    | .error abort => c.output ++ abort.message ++ "\n"

section Line

variable (showConstraints : Bool) {line : String}

/-- All faults but one are told to the user. -/
theorem isReported_of_check (hline : overlong line = false) {abort : Abort}
    (h : (check showConstraints line).outcome = .error abort) : isReported abort = true := by
  unfold check at h
  split at h
  · rename_i e hparse
    cases h
    cases e with
    | numberTooLong digits => simp [overlong, hparse] at hline
    | badCharacter position => rfl
    | badToken position => rfl
    | unfinished => rfl
  · dsimp only at h
    split at h
    · cases h
      rfl
    · cases h

theorem checkLine_of_readable (hline : overlong line = false) :
    (checkLine (check showConstraints) line).outcome = .ok () ∧
      (checkLine (check showConstraints) line).output = answer showConstraints line := by
  unfold checkLine answer
  split
  · exact ⟨rfl, rfl⟩
  · dsimp only
    cases hc : (check showConstraints line).outcome with
    | ok _ => exact ⟨hc, rfl⟩
    | error abort =>
      dsimp only
      rw [if_pos (isReported_of_check showConstraints hline hc)]
      exact ⟨rfl, rfl⟩

theorem checkLine_of_tooLong {digits : Nat}
    (hline : Source.parse line = .error (.numberTooLong digits)) :
    checkLine (check showConstraints) line =
      ⟨"", .error (.failure (.reading (.numberTooLong digits))), []⟩ := by
  have hblank : ¬Text.allBlank line = true := by
    intro hblank
    rw [Source.parse_blank hblank] at hline
    cases hline
  have hcheck : check showConstraints line =
      ⟨"", .error (.failure (.reading (.numberTooLong digits))), []⟩ := by
    simp only [check, hline]
  rw [checkLine, if_neg hblank, hcheck]
  rfl

end Line

/-! ### The loop -/

/-- The answers to lines, each after a prompt. -/
def answers (showConstraints : Bool) (lines : List String) : String :=
  String.join (lines.map fun line => prompt ++ answer showConstraints line)

/-- Lines that do not end the loop are answered one by one, and the loop goes on as if it began with
the next. -/
theorem loop_append (showConstraints : Bool) {lines : List String}
    (h : ∀ line ∈ lines, overlong line = false) (rest : List String) :
    (loop (check showConstraints) (lines ++ rest)).outcome =
        (loop (check showConstraints) rest).outcome ∧
      (loop (check showConstraints) (lines ++ rest)).output =
        answers showConstraints lines ++ (loop (check showConstraints) rest).output := by
  induction lines with
  | nil => simp [answers]
  | cons line lines ih =>
    obtain ⟨houtcome, houtput⟩ := ih fun l hl => h l (by simp [hl])
    obtain ⟨hok, hanswer⟩ := checkLine_of_readable showConstraints (h line (by simp))
    simp only [List.cons_append, loop, hok, houtcome, houtput, hanswer, answers, List.map_cons,
      String.join_cons, String.append_assoc, and_self]

/-- The loop ends with a line that has a number too long to be read. -/
theorem loop_of_tooLong (showConstraints : Bool) {line : String} {digits : Nat}
    (hline : Source.parse line = .error (.numberTooLong digits)) (rest : List String) :
    loop (check showConstraints) (line :: rest) =
      ⟨prompt, .error (.failure (.reading (.numberTooLong digits))), []⟩ := by
  simp only [loop, checkLine_of_tooLong showConstraints hline, String.append_empty]

/-- The loop comes to the end of the input exactly when no line has a number too long to be read,
and then it has answered every line as if there were no other. Otherwise it ends at the first such
line, which has no answer. -/
theorem loop_answers (showConstraints : Bool) (lines : List String) :
    let c := loop (check showConstraints) lines
    (c.outcome = .ok () ↔ ∀ line ∈ lines, overlong line = false) ∧
    (c.outcome = .ok () → c.output = answers showConstraints lines ++ prompt ++ "\n") ∧
    ∀ abort, c.outcome = .error abort → ∃ before line rest digits,
      lines = before ++ line :: rest ∧ (∀ l ∈ before, overlong l = false) ∧
      Source.parse line = .error (.numberTooLong digits) ∧
      abort = .failure (.reading (.numberTooLong digits)) ∧
      c.output = answers showConstraints before ++ prompt := by
  intro c
  cases hfind : lines.find? overlong with
  | none =>
    have hall : ∀ line ∈ lines, overlong line = false := by
      simpa using hfind
    obtain ⟨hok, houtput⟩ := loop_append showConstraints hall []
    rw [List.append_nil] at hok houtput
    refine ⟨iff_of_true hok hall, fun _ => ?_, fun abort habort => ?_⟩
    · rw [String.append_assoc]
      exact houtput
    · cases hok.symm.trans habort
  | some line =>
    obtain ⟨hline, before, rest, rfl, hbefore⟩ := List.find?_eq_some_iff_append.1 hfind
    obtain ⟨digits, hdigits⟩ := overlong_iff.1 hline
    have hbefore' : ∀ l ∈ before, overlong l = false := by simpa using hbefore
    obtain ⟨hend, houtput⟩ := loop_append showConstraints hbefore' (line :: rest)
    rw [loop_of_tooLong showConstraints hdigits] at hend houtput
    refine ⟨iff_of_false ?_ ?_, fun hok => ?_, fun abort habort => ?_⟩
    · simp [c, hend]
    · intro hall
      have := hall line (by simp)
      simp [hline] at this
    · simp [c, hend] at hok
    · refine ⟨before, line, rest, digits, rfl, hbefore', hdigits, ?_, houtput⟩
      exact Except.error.inj (habort.symm.trans hend)

/-- A number with one digit more than can be read. -/
def longNumber : String := String.ofList (List.replicate (Text.maxDigits + 1) '1')

theorem length_longNumber : longNumber.length = Text.maxDigits + 1 := by
  rw [longNumber, String.length_ofList, List.length_replicate]

theorem parse_longNumber :
    Source.parse longNumber = .error (.numberTooLong (Text.maxDigits + 1)) := by
  have hspelled : (Source.Terminal.number longNumber).Spelled := by
    refine ⟨fun hempty => ?_, fun c hc => ?_⟩
    · have hlength := length_longNumber
      rw [hempty] at hlength
      exact Nat.succ_ne_zero _ hlength.symm
    · rw [longNumber, String.toList_ofList] at hc
      rw [List.eq_of_mem_replicate hc]
      rfl
  rw [← length_longNumber]
  exact Source.parse_number_tooLong hspelled (by rw [length_longNumber]; exact Nat.lt_succ_self _)

/-- A number that is too long ends the loop with nothing said, and the line after it is not read. So
the loop does not come to the end of every input. -/
theorem loop_longNumber :
    (loop (check false) [longNumber, "1"]).outcome =
      .error (.failure (.reading (.numberTooLong 4301))) ∧
    (loop (check false) [longNumber, "1"]).output = prompt ∧
    ¬∀ lines, (loop (check false) lines).outcome = .ok () ∧
      (loop (check false) lines).output = answers false lines ++ prompt ++ "\n" := by
  have hloop := loop_of_tooLong false parse_longNumber ["1"]
  rw [hloop]
  refine ⟨rfl, rfl, fun hall => ?_⟩
  have hok := (hall [longNumber, "1"]).1
  rw [hloop] at hok
  cases hok

end Command

end Monotype
