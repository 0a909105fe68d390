/-
# The end of a text and its lexemes

What appending to a text does to its lexemes.  White space does nothing, a semicolon adds
itself, a letter makes a lexeme longer or starts one; a text that ends inside a string stays
there.  All of this holds unless the text ends inside a line comment, which swallows what comes
after it up to the end of the line.
-/
import PgPaw.Sql.Lexer
import PgPaw.Text

namespace PgPaw.Sql.Lexer

/-! ## 1. One character -/

/-- The text ends inside a comment that the end of the line would end. -/
def endsInComment (text : List Char) : Bool := isComment (lexer.state text)

section Characters

variable {text : List Char} {ts : List Lexeme} {c : Char}

/-- One more character, by the step it makes. -/
theorem output_step {next : Mode} {out f : List Lexeme}
    (hstep : step (lexer.state text) c = (next, out)) (hf : finish next = some f) :
    lexer.output (text ++ [c]) = some ((lexer.run lexer.start text).2 ++ (out ++ f)) ∧
      endsInComment (text ++ [c]) = isComment next := by
  have hnext : lexer.step (lexer.state text) c = (next, out) := hstep
  have hfinish : lexer.finish (lexer.step (lexer.state text) c).1 = some f := by
    rw [hnext]
    exact hf
  unfold endsInComment
  rw [Transducer.output_snoc hfinish, lexer.state_snoc, hnext]
  exact ⟨rfl, rfl⟩

/-- White space adds nothing. -/
theorem output_space {newline : Bool} (hclass : charClass c = .space newline)
    (h : lexer.output text = some ts) (hc : endsInComment text = false) :
    lexer.output (text ++ [c]) = some ts ∧ endsInComment (text ++ [c]) = false := by
  obtain ⟨f, hf, rfl⟩ := Transducer.output_eq_some.mp h
  rcases step_space hclass hf hc with hstep | ⟨style, content, newline', hstep, rfl⟩
  · obtain ⟨hout, hc'⟩ := output_step hstep rfl
    rw [List.append_nil] at hout
    exact ⟨hout, hc'⟩
  · exact output_step hstep rfl

/-- A semicolon adds itself. -/
theorem output_semicolon (h : lexer.output text = some ts) (hc : endsInComment text = false) :
    lexer.output (text ++ [';']) = some (ts ++ [semicolon]) ∧
      endsInComment (text ++ [';']) = false := by
  obtain ⟨f, hf, rfl⟩ := Transducer.output_eq_some.mp h
  obtain ⟨hout, hc'⟩ := output_step (step_other (c := ';') (by decide) hf hc) rfl
  rw [List.append_nil, ← List.append_assoc] at hout
  exact ⟨hout, hc'⟩

/-- A letter makes the lexemes longer by one character. -/
theorem output_letter (hclass : charClass c = .letter) (h : lexer.output text = some ts)
    (hc : endsInComment text = false) : ∃ ts', lexer.output (text ++ [c]) = some ts' ∧
      weight ts' = weight ts + 1 ∧ endsInComment (text ++ [c]) = false := by
  obtain ⟨f, hf, rfl⟩ := Transducer.output_eq_some.mp h
  obtain ⟨f', hf', hweight, hcomment⟩ := step_letter hclass hf hc
  have hstep : step (lexer.state text) c =
      ((step (lexer.state text) c).1, (step (lexer.state text) c).2) := rfl
  obtain ⟨hout, hc'⟩ := output_step hstep hf'
  refine ⟨_, hout, ?_, hc'.trans hcomment⟩
  rw [weight_append, hweight, weight_append, add_assoc]

/-- In a comment nothing is added. -/
theorem output_comment (h : lexer.output text = some ts) (hc : endsInComment text = true) :
    lexer.output (text ++ [c]) = some ts := by
  obtain ⟨f, hf, rfl⟩ := Transducer.output_eq_some.mp h
  by_cases hclass : charClass c = .space true
  · obtain ⟨hf', hout⟩ := step_comment_newline hclass hf hc
    have hstep : step (lexer.state text) c =
        ((step (lexer.state text) c).1, (step (lexer.state text) c).2) := rfl
    rw [(output_step hstep hf').1, hout, List.nil_append]
  · exact (output_step (step_comment hc hclass) hf).1

/-- What ends inside a string, a quoted identifier or a block comment stays there. -/
theorem output_none (h : lexer.output text = none) (hquote : c ≠ '\'') (hdouble : c ≠ '"')
    (hdollar : c ≠ '$') (hslash : c ≠ '/') : lexer.output (text ++ [c]) = none := by
  rw [Transducer.output_eq_none] at h ⊢
  rw [lexer.state_snoc]
  exact finish_step_none h hquote hdouble hdollar hslash

end Characters

/-! ## 2. What `trim_end` and `trim_end_matches` remove -/

/-- White space outside ASCII is a letter to the lexer. -/
theorem charClass_of_isWhitespace {c : Char} (h : isWhitespace c = true) :
    (c.toNat < 0x80 ∧ ∃ newline, charClass c = .space newline) ∨
      (0x80 ≤ c.toNat ∧ charClass c = .letter) := by
  rcases Nat.lt_or_ge c.toNat 0x80 with hascii | hlarge
  · left
    have hall : ∀ n < 0x80, isWhitespace (Char.ofNat n) = true →
        charClass (Char.ofNat n) = .space true ∨ charClass (Char.ofNat n) = .space false := by
      decide
    have hclass := hall c.toNat hascii (by rwa [Char.ofNat_toNat])
    rw [Char.ofNat_toNat] at hclass
    refine ⟨hascii, ?_⟩
    rcases hclass with hclass | hclass
    · exact ⟨true, hclass⟩
    · exact ⟨false, hclass⟩
  · right
    refine ⟨hlarge, ?_⟩
    have hne (d : Char) (hd : d.toNat < 0x80) : c ≠ d := by
      rintro rfl
      omega
    have hvertical : ¬ c.toNat = 0xB := by omega
    have hform : ¬ c.toNat = 0xC := by omega
    simp [charClass, hne '\n' (by decide), hne '\r' (by decide), hne ' ' (by decide),
      hne '\t' (by decide), hvertical, hform, hlarge]

section Tails

variable {text tail : List Char} {ts : List Lexeme}

/-- ASCII white space adds nothing. -/
theorem output_blank (htail : ∀ c ∈ tail, ∃ newline, charClass c = .space newline)
    (h : lexer.output text = some ts) (hc : endsInComment text = false) :
    lexer.output (text ++ tail) = some ts := by
  induction tail generalizing text with
  | nil => rwa [List.append_nil]
  | cons c tail ih =>
    obtain ⟨newline, hclass⟩ := htail c List.mem_cons_self
    obtain ⟨hout, hc'⟩ := output_space hclass h hc
    rw [← List.singleton_append, ← List.append_assoc]
    exact ih (fun d hd => htail d (List.mem_cons_of_mem c hd)) hout hc'

/-- Semicolons add themselves. -/
theorem output_semicolons (htail : ∀ c ∈ tail, c = ';') (h : lexer.output text = some ts)
    (hc : endsInComment text = false) :
    lexer.output (text ++ tail) = some (ts ++ tail.map fun _ => semicolon) ∧
      endsInComment (text ++ tail) = false := by
  induction tail generalizing text ts with
  | nil =>
    rw [List.append_nil, List.map_nil, List.append_nil]
    exact ⟨h, hc⟩
  | cons c tail ih =>
    obtain rfl := htail c List.mem_cons_self
    obtain ⟨hout, hc'⟩ := output_semicolon h hc
    have hrest := ih (fun d hd => htail d (List.mem_cons_of_mem _ hd)) hout hc'
    rw [List.append_assoc, List.append_assoc] at hrest
    exact hrest

/-- A character that trimming removes. -/
def IsTrimmed (c : Char) : Prop := c = ';' ∨ isWhitespace c = true

/-- What trimming removes closes nothing. -/
theorem output_tail_none (htail : ∀ c ∈ tail, IsTrimmed c) (h : lexer.output text = none) :
    lexer.output (text ++ tail) = none := by
  induction tail generalizing text with
  | nil => rwa [List.append_nil]
  | cons c tail ih =>
    have hne (d : Char) (hd : d ≠ ';') (hd' : isWhitespace d = false) : c ≠ d := by
      rintro rfl
      rcases htail c List.mem_cons_self with rfl | hspace
      · exact hd rfl
      · rw [hspace] at hd'
        cases hd'
    have hout := output_none h (hne '\'' (by decide) (by decide)) (hne '"' (by decide) (by decide))
      (hne '$' (by decide) (by decide)) (hne '/' (by decide) (by decide))
    rw [← List.singleton_append, ← List.append_assoc]
    exact ih (fun d hd => htail d (List.mem_cons_of_mem c hd)) hout

/-- And takes no character out of the lexemes. -/
theorem weight_le_tail (htail : ∀ c ∈ tail, IsTrimmed c) (h : lexer.output text = some ts) :
    ∃ ts', lexer.output (text ++ tail) = some ts' ∧ weight ts ≤ weight ts' := by
  induction tail generalizing text ts with
  | nil => exact ⟨ts, by rwa [List.append_nil], Nat.le_refl _⟩
  | cons c tail ih =>
    have hstep : ∃ ts', lexer.output (text ++ [c]) = some ts' ∧ weight ts ≤ weight ts' := by
      cases hc : endsInComment text with
      | true => exact ⟨ts, output_comment h hc, Nat.le_refl _⟩
      | false =>
        rcases htail c List.mem_cons_self with rfl | hspace
        · refine ⟨_, (output_semicolon h hc).1, ?_⟩
          rw [weight_append]
          exact Nat.le_add_right _ _
        rcases charClass_of_isWhitespace hspace with ⟨-, newline, hclass⟩ | ⟨-, hclass⟩
        · exact ⟨ts, (output_space hclass h hc).1, Nat.le_refl _⟩
        · obtain ⟨ts', hout, hweight, -⟩ := output_letter hclass h hc
          exact ⟨ts', hout, by omega⟩
    obtain ⟨ts', hout, hle⟩ := hstep
    obtain ⟨ts'', hout', hle'⟩ := ih (fun d hd => htail d (List.mem_cons_of_mem c hd)) hout
    rw [List.append_assoc] at hout'
    exact ⟨ts'', hout', Nat.le_trans hle hle'⟩

/-- White space outside ASCII makes the lexemes longer. -/
theorem weight_lt_tail (htail : ∀ c ∈ tail, isWhitespace c = true)
    (hwide : ∃ c ∈ tail, 0x80 ≤ c.toNat) (h : lexer.output text = some ts)
    (hc : endsInComment text = false) :
    ∃ ts', lexer.output (text ++ tail) = some ts' ∧ weight ts < weight ts' := by
  induction tail generalizing text with
  | nil =>
    obtain ⟨c, hmem, -⟩ := hwide
    cases hmem
  | cons c tail ih =>
    have hrest : ∀ d ∈ tail, isWhitespace d = true := fun d hd =>
      htail d (List.mem_cons_of_mem c hd)
    rw [← List.singleton_append, ← List.append_assoc]
    rcases charClass_of_isWhitespace (htail c List.mem_cons_self) with
      ⟨hascii, newline, hclass⟩ | ⟨-, hclass⟩
    · obtain ⟨hout, hc'⟩ := output_space hclass h hc
      obtain ⟨d, hd, hlarge⟩ := hwide
      rcases List.mem_cons.mp hd with rfl | hd
      · omega
      · exact ih hrest ⟨d, hd, hlarge⟩ hout hc'
    · obtain ⟨ts', hout, hweight, -⟩ := output_letter hclass h hc
      obtain ⟨ts'', hout', hle⟩ := weight_le_tail (fun d hd => Or.inr (hrest d hd)) hout
      exact ⟨ts'', hout', by omega⟩

end Tails

/-! ## 3. What is put after a text -/

section After

variable {m : Mode} {c d : Char} {f : List Lexeme}

/-- A character of no other class breaks off what is open. -/
theorem breaks_other (hclass : charClass c = .other) (hf : finish m = some f)
    (hm : isComment m = false) : lexer.Breaks m [c] := by
  refine ⟨f, hf, ?_⟩
  have hstep : lexer.step m c = (.between, f ++ [⟨.punct, [c]⟩]) := step_other hclass hf hm
  have hstart : lexer.step lexer.start c = (.between, [] ++ [⟨.punct, [c]⟩]) :=
    step_other (m := .between) hclass rfl rfl
  rw [Transducer.run_cons, Transducer.run_cons, hstep, hstart]
  simp

/-- So does white space with a letter after it. -/
theorem breaks_space_letter (hspace : ∃ newline, charClass c = .space newline)
    (hletter : charClass d = .letter) (hf : finish m = some f) (hm : isComment m = false) :
    lexer.Breaks m [c, d] := by
  obtain ⟨newline, hspace⟩ := hspace
  have hword : stepBetween d = (.word [d], []) := by rw [stepBetween, hletter]
  have hstart : lexer.step lexer.start c = (.between, []) := by
    show stepBetween c = _
    rw [stepBetween, hspace]
  have hbetween : lexer.step .between d = (.word [d], []) := hword
  refine ⟨f, hf, ?_⟩
  rw [Transducer.run_cons, Transducer.run_cons, Transducer.run_cons, Transducer.run_cons, hstart,
    hbetween]
  rcases step_space hspace hf hm with hstep | ⟨style, text, newline', hstep, rfl⟩
  · have hstep' : lexer.step m c = (.between, f) := hstep
    rw [hstep', hbetween]
    simp
  · have hstep' : lexer.step m c = (.stringGap style text newline', []) := hstep
    have hgap : lexer.step (.stringGap style text newline') d =
        (.word [d], [⟨.string style, text⟩]) := by
      show stepGap style text newline' d = _
      simp [stepGap, hletter, endBefore, hword, Step.after]
    rw [hstep', hgap]
    simp

/-- A comment swallows a text without a line end. -/
theorem swallows_comment {tail : List Char} (hm : isComment m = true)
    (htail : ∀ c ∈ tail, charClass c ≠ .space true) : lexer.Swallows m tail := by
  have hrun : lexer.run m tail = (m, []) := by
    induction tail with
    | nil => rfl
    | cons c tail ih =>
      have hstep : lexer.step m c = (m, []) :=
        step_comment hm (htail c List.mem_cons_self)
      rw [Transducer.run_cons, hstep, ih fun d hd => htail d (List.mem_cons_of_mem c hd)]
      rfl
  unfold Transducer.Swallows
  rw [hrun]
  exact ⟨rfl, rfl⟩

end After

/-! ## 4. The semicolons around a statement -/

/-- The lexemes of the statement in a text: without the semicolons after it and before it. -/
def statementLexemes (lexemes : List Lexeme) : List Lexeme :=
  (lexemes.rdropWhile (· == semicolon)).dropWhile (· == semicolon)

/-- More semicolons at the end make no difference. -/
theorem statementLexemes_append (lexemes : List Lexeme) (tail : List Char) :
    statementLexemes (lexemes ++ tail.map fun _ => semicolon) = statementLexemes lexemes := by
  induction tail using List.reverseRecOn with
  | nil => rw [List.map_nil, List.append_nil]
  | append_singleton tail c ih =>
    unfold statementLexemes at ih ⊢
    rw [List.map_append, List.map_singleton, ← List.append_assoc,
      List.rdropWhile_concat_pos _ _ _ (by simp), ih]

theorem weight_of_semicolons {lexemes : List Lexeme} (h : ∀ l ∈ lexemes, l = semicolon) :
    weight lexemes = 0 := by
  induction lexemes with
  | nil => rfl
  | cons l lexemes ih =>
    rw [weight_cons, if_pos (h l List.mem_cons_self),
      ih fun l hl => h l (List.mem_cons_of_mem _ hl)]

/-- The statement has all the characters. -/
theorem weight_statementLexemes (lexemes : List Lexeme) :
    weight (statementLexemes lexemes) = weight lexemes := by
  have htake : weight ((lexemes.rdropWhile (· == semicolon)).takeWhile (· == semicolon)) = 0 :=
    weight_of_semicolons fun l hl => by simpa using List.mem_takeWhile_imp hl
  have hrtake : weight (lexemes.rtakeWhile (· == semicolon)) = 0 :=
    weight_of_semicolons fun l hl => by simpa using List.mem_rtakeWhile_imp hl
  calc weight (statementLexemes lexemes)
      = weight ((lexemes.rdropWhile (· == semicolon)).takeWhile (· == semicolon)) +
          weight (statementLexemes lexemes) := by rw [htake, Nat.zero_add]
    _ = weight (lexemes.rdropWhile (· == semicolon)) := by
        rw [statementLexemes, ← weight_append, List.takeWhile_append_dropWhile]
    _ = weight (lexemes.rdropWhile (· == semicolon)) +
          weight (lexemes.rtakeWhile (· == semicolon)) := by rw [hrtake, Nat.add_zero]
    _ = weight lexemes := by rw [← weight_append, List.rdropWhile_append_rtakeWhile]

theorem dropWhile_eq_self {lexemes : List Lexeme} :
    lexemes.dropWhile (· == semicolon) = lexemes ↔ lexemes.head? ≠ some semicolon := by
  cases lexemes with
  | nil => simp
  | cons l lexemes => simp [List.dropWhile_eq_self_iff]

theorem rdropWhile_eq_self {lexemes : List Lexeme} :
    lexemes.rdropWhile (· == semicolon) = lexemes ↔ lexemes.getLast? ≠ some semicolon := by
  rw [List.rdropWhile, List.reverse_eq_iff, dropWhile_eq_self, List.head?_reverse]

/-- Nothing is dropped exactly when there is no semicolon at either end. -/
theorem statementLexemes_eq_self {lexemes : List Lexeme} : statementLexemes lexemes = lexemes ↔
    lexemes.head? ≠ some semicolon ∧ lexemes.getLast? ≠ some semicolon := by
  unfold statementLexemes
  constructor
  · intro h
    have hpre := List.rdropWhile_prefix (· == semicolon) (l := lexemes)
    have hle := (List.dropWhile_sublist (· == semicolon)
      (l := lexemes.rdropWhile (· == semicolon))).length_le
    rw [h] at hle
    have hself := hpre.eq_of_length_le hle
    rw [hself] at h
    exact ⟨dropWhile_eq_self.mp h, rdropWhile_eq_self.mp hself⟩
  · rintro ⟨hhead, hlast⟩
    rw [rdropWhile_eq_self.mpr hlast, dropWhile_eq_self.mpr hhead]

end PgPaw.Sql.Lexer
