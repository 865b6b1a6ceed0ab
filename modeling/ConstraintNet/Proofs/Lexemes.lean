import ConstraintNet.Json.Lexeme
import ConstraintNet.Json.Tree
import Mathlib.Tactic.IntervalCases

namespace ConstraintNet.Json

/-- Characters that take the reader from one mode to another and complete the listed lexemes,
whatever stands after them. -/
def Reads (mode : Mode) (chars : List Char) (out : List Lexeme) (next : Mode) : Prop :=
  ∀ rest, lexemesFrom mode (chars ++ rest) = out ++ lexemesFrom next rest

/-- A text may end between lexemes or in a number; anywhere else the end is a fault. -/
theorem Mode.finish_cases (mode : Mode) :
    mode = .between ∨ mode.finish = [.junk] ∨ ∃ x, mode.finish = [.number x] := by
  cases mode with
  | between => exact .inl rfl
  | number state =>
    match hfinish : state.finish? with
    | some x => exact .inr (.inr ⟨x, by rw [finish, hfinish]⟩)
    | none => exact .inr (.inl (by rw [finish, hfinish]))
  | word | text | escape | code | pair | pairEscape => exact .inr (.inl rfl)

namespace Reads

variable {mode middle next : Mode} {chars more : List Char} {out further : List Lexeme}

theorem append (first : Reads mode chars out middle) (second : Reads middle more further next) :
    Reads mode (chars ++ more) (out ++ further) next := by
  intro rest
  rw [List.append_assoc, first, second, List.append_assoc]

theorem of_step {c : Char} (h : mode.step c = (out, some next)) : Reads mode [c] out next := by
  intro rest
  change lexemesFrom mode (c :: rest) = _
  rw [lexemesFrom, h]

/-- The reader gets through a text or gives up in it. -/
theorem or_junk (mode : Mode) (chars : List Char) :
    (∃ out next, Reads mode chars out next) ∨
      ∃ out, ∀ rest, lexemesFrom mode (chars ++ rest) = out ++ [.junk] := by
  induction chars generalizing mode with
  | nil => exact .inl ⟨[], mode, fun rest => rfl⟩
  | cons c chars ih =>
    match hstep : mode.step c with
    | (found, none) =>
      refine .inr ⟨found, fun rest => ?_⟩
      rw [List.cons_append, lexemesFrom, hstep]
    | (found, some middle) =>
      have hfirst : Reads mode [c] found middle := of_step hstep
      rcases ih middle with ⟨out, next, hrest⟩ | ⟨out, hrest⟩
      · exact .inl ⟨found ++ out, next, hfirst.append hrest⟩
      · refine .inr ⟨found ++ out, fun rest => ?_⟩
        have hcons : lexemesFrom mode (c :: (chars ++ rest)) = _ := hfirst (chars ++ rest)
        rw [List.cons_append, hcons, hrest, List.append_assoc]

/-- A text that makes up one lexeme by itself makes up the same one in front of anything, unless it
is a number, which may go on. -/
theorem of_lexemes {s : String} {l : Lexeme} (h : lexemes s = [l]) (hjunk : l ≠ .junk)
    (hnumber : ∀ x, l ≠ .number x) : Reads .between s.toList [l] .between := by
  have hends : lexemesFrom .between (s.toList ++ []) = [l] := by
    rw [List.append_nil]
    exact h
  have hlast (out : List Lexeme) (last : Lexeme) (hout : out ++ [last] = [l]) : last = l := by
    simpa using congrArg List.getLast? hout
  rcases or_junk .between s.toList with ⟨out, next, hreads⟩ | ⟨out, hreads⟩
  · have hout : out ++ next.finish = [l] := (hreads []).symm.trans hends
    rcases next.finish_cases with hnext | hfinish | ⟨x, hfinish⟩
    · subst hnext
      rw [Mode.finish, List.append_nil] at hout
      exact hout ▸ hreads
    · rw [hfinish] at hout
      exact absurd (hlast out _ hout).symm hjunk
    · rw [hfinish] at hout
      exact absurd (hlast out _ hout).symm (hnumber x)
  · exact absurd (hlast out _ ((hreads []).symm.trans hends)).symm hjunk

end Reads

theorem reads_escapeChar (c : Char) (read : List Char) :
    Reads (.text read) (Tree.escapeChar c) [] (.text (c :: read)) := by
  -- control characters are written by number or by letter, two marks behind a backslash, and the
  -- others as they are
  by_cases hcontrol : c.toNat < 0x20
  · have hc : Char.ofNat c.toNat = c := Char.ofNat_toNat c
    generalize c.toNat = n at hcontrol hc
    subst hc
    intro rest
    interval_cases n <;> rfl
  · by_cases hmark : c = '"' ∨ c = '\\'
    · intro rest
      rcases hmark with h | h <;> subst h <;> rfl
    · have hother (d : Char) (hd : d.toNat < 0x20) : c ≠ d := by
        intro h
        subst h
        exact hcontrol hd
      have hself : Tree.escapeChar c = [c] := by
        simp [Tree.escapeChar, hmark, hcontrol, hother '\n' (by decide), hother '\r' (by decide),
          hother '\t' (by decide), hother '\x08' (by decide), hother '\x0c' (by decide)]
      rw [hself]
      apply Reads.of_step
      rw [not_or] at hmark
      simp [Mode.step, hmark, hcontrol]

theorem reads_quote (s : String) :
    Reads .between (Tree.quote s).toList [.text s] .between := by
  have hbody (chars read : List Char) :
      Reads (.text read) (chars.flatMap Tree.escapeChar) [] (.text (chars.reverse ++ read)) := by
    induction chars generalizing read with
    | nil => exact fun rest => rfl
    | cons c chars ih =>
      have hcons := (reads_escapeChar c read).append (ih (c :: read))
      simpa using hcons
  have hopen : Reads .between ['"'] [] (.text []) := Reads.of_step rfl
  have hclose : Reads (.text (s.toList.reverse ++ [])) ['"'] [.text s] .between := by
    apply Reads.of_step
    simp [Mode.step]
  have hall := (hopen.append (hbody s.toList [])).append hclose
  simpa [Tree.quote] using hall

theorem lexemes_quote (s : String) : lexemes (Tree.quote s) = [.text s] := by
  have hreads := reads_quote s []
  rw [List.append_nil] at hreads
  exact hreads

theorem digit?_digitChar {d : Nat} (hd : d < 10) :
    NumberState.digit? (Nat.digitChar d) = some d := by
  interval_cases d <;> rfl

/-- A number of 64 bits of which all digits so far have been read. -/
def wholeSoFar (n : Nat) : NumberState := { part := .digits, isNegative := false, significand := n }

theorem reads_digits (n : Nat) (hpos : 0 < n) (hn : n < UInt64.size) :
    Reads .between (Nat.toDigits 10 n) [] (.number (wholeSoFar n)) := by
  induction n using Nat.strong_induction_on with
  | _ n ih =>
    by_cases hsmall : n < 10
    · rw [Nat.toDigits_of_lt_base hsmall]
      interval_cases n <;> exact Reads.of_step rfl
    · have hmod : n % 10 < 10 := Nat.mod_lt n (by decide)
      have hfits : n / 10 * 10 + n % 10 = n := by omega
      have hinit := ih (n / 10) (by omega) (by omega) (by omega)
      have hlast : Reads (.number (wholeSoFar (n / 10))) [Nat.digitChar (n % 10)] []
          (.number (wholeSoFar n)) := by
        apply Reads.of_step
        simp [Mode.step, NumberState.extend, NumberState.fits, wholeSoFar, digit?_digitChar hmod,
          hfits, hn]
      rw [Nat.toDigits_of_base_le (by decide) (by omega)]
      exact hinit.append hlast

/-- What ends a value inside an object. -/
def IsDelimiter (c : Char) : Prop := c = ',' ∨ c = '\x7d'

/-- Characters that complete the listed lexemes as soon as a value may end. -/
def Completes (chars : List Char) (out : List Lexeme) : Prop :=
  ∀ c rest, IsDelimiter c →
    lexemesFrom .between (chars ++ c :: rest) = out ++ lexemesFrom .between (c :: rest)

theorem Reads.completes {chars : List Char} {out : List Lexeme}
    (h : Reads .between chars out .between) : Completes chars out :=
  fun c rest _ => h (c :: rest)

theorem Reads.append_completes {chars more : List Char} {out further : List Lexeme}
    (first : Reads .between chars out .between) (second : Completes more further) :
    Completes (chars ++ more) (out ++ further) := by
  intro c rest hc
  rw [List.append_assoc, first, second c rest hc, List.append_assoc]

/-- A whole number is complete at the delimiter after it. -/
theorem completes_of_state {chars : List Char} {state : NumberState} {n : Nat}
    (h : Reads .between chars [] (.number state)) (hfinish : state.finish? = some (.natural n))
    (hafter : ∀ c, IsDelimiter c → state.extend c = .after) :
    Completes chars [.number (.natural n)] := by
  intro c rest hc
  rw [h]
  simp only [lexemesFrom, Mode.step, hafter c hc, hfinish]
  match Mode.start c with
  | (found, some next) => rfl
  | (found, none) => rfl

theorem completes_number {n : Nat} (hn : n < UInt64.size) :
    Completes (toString n).toList [.number (.natural n)] := by
  have hdigits : (toString n).toList = Nat.toDigits 10 n := by
    rw [Nat.toString_eq_ofList_toDigits, String.toList_ofList]
  rw [hdigits]
  rcases Nat.eq_zero_or_pos n with hzero | hpos
  · subst hzero
    have hread : Reads .between ['0'] []
        (.number { part := .leadingZero, isNegative := false }) := Reads.of_step rfl
    apply completes_of_state hread rfl
    intro c hc
    rcases hc with h | h <;> subst h <;> rfl
  · apply completes_of_state (reads_digits n hpos hn) rfl
    intro c hc
    rcases hc with h | h <;> subst h <;> rfl

end ConstraintNet.Json
