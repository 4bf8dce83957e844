import Mathlib

/-! # Lexing SQL text with string literals

    A small library about SQL text built by pasting strings between quotes.

    * `lex`: the lexer, as a byte-driven machine. A string literal ends at the
      first quote that is not doubled; a doubled quote stands for one.
    * `Template`: fixed text with string literals in between. `Template.text`
      pastes the strings in unescaped; `Template.tokens` is what the template
      means: the fixed text's tokens and one literal for each string.
    * `Template.lex_text_iff`: the text means the template exactly when no string
      has a quote in it.
-/

namespace SqlLex

/-- The single quote. -/
abbrev quote : UInt8 := 39

/-- Tokens: words (keywords, names and numbers), single punctuation bytes, and
    string literals with the bytes they stand for. `unterminated` is a literal
    cut off by the end of the text. -/
inductive Token where
  | word (bytes : List UInt8)
  | punct (b : UInt8)
  | str (bytes : List UInt8)
  | unterminated
  deriving DecidableEq

/-- The state of the lexer between two bytes. In `closing` a quote has been read
    inside a literal; the next byte decides whether it ended it. -/
inductive Mode where
  | start
  | word (w : List UInt8)
  | lit (s : List UInt8)
  | closing (s : List UInt8)
  deriving DecidableEq

/-- Letters, digits, underscore and bytes beyond ASCII. -/
def isWordByte (b : UInt8) : Bool :=
  (48 ≤ b && b ≤ 57) || (65 ≤ b && b ≤ 90) || (97 ≤ b && b ≤ 122) || b = 95 || 128 ≤ b

def isSpace (b : UInt8) : Bool := b = 32 || (9 ≤ b && b ≤ 13)

/-- A byte at the start of a token. -/
def stepStart (b : UInt8) : List Token × Mode :=
  if isSpace b then ([], .start)
  else if b = quote then ([], .lit [])
  else if isWordByte b then ([], .word [b])
  else ([.punct b], .start)

/-- One byte: the tokens it completes and the next state. -/
def step : Mode → UInt8 → List Token × Mode
  | .start, b => stepStart b
  | .word w, b =>
    if isWordByte b then ([], .word (w ++ [b]))
    else (.word w :: (stepStart b).1, (stepStart b).2)
  | .lit s, b => if b = quote then ([], .closing s) else ([], .lit (s ++ [b]))
  | .closing s, b =>
    if b = quote then ([], .lit (s ++ [quote]))
    else (.str s :: (stepStart b).1, (stepStart b).2)

/-- What the end of the text completes. -/
def finish : Mode → List Token
  | .start => []
  | .word w => [.word w]
  | .lit _ => [.unterminated]
  | .closing s => [.str s]

/-- Lex from a given state. -/
def lexFrom : Mode → List UInt8 → List Token
  | m, [] => finish m
  | m, b :: bs => (step m b).1 ++ lexFrom (step m b).2 bs

/-- Lex a whole text. -/
def lex (text : List UInt8) : List Token := lexFrom .start text

/-! ## Text without quotes -/

/-- Not inside a literal. -/
def Mode.Outside : Mode → Prop
  | .start | .word _ => True
  | .lit _ | .closing _ => False

/-- A byte after which the next one starts a token. -/
def isBreak (b : UInt8) : Bool := b ≠ quote && !isWordByte b

theorem stepStart_break {b : UInt8} (hb : isBreak b = true) : (stepStart b).2 = .start := by
  simp only [isBreak, Bool.and_eq_true, decide_eq_true_eq, Bool.not_eq_true'] at hb
  unfold stepStart
  split
  · rfl
  · simp [hb.1, hb.2]

theorem step_break {m : Mode} {b : UInt8} (hm : m.Outside) (hb : isBreak b = true) :
    (step m b).2 = .start := by
  cases m with
  | start => exact stepStart_break hb
  | word w =>
    have hw : isWordByte b = false := by
      simp only [isBreak, Bool.and_eq_true, Bool.not_eq_true'] at hb
      exact hb.2
    simp only [step, hw, Bool.false_eq_true, if_false]
    exact stepStart_break hb
  | lit s => exact hm.elim
  | closing s => exact hm.elim

theorem step_outside {m : Mode} {b : UInt8} (hm : m.Outside) (hb : b ≠ quote) :
    (step m b).2.Outside := by
  have hstart : (stepStart b).2.Outside := by
    unfold stepStart
    rw [if_neg hb]
    split
    · trivial
    · split <;> trivial
  cases m with
  | start => exact hstart
  | word w =>
    simp only [step]
    split
    · trivial
    · exact hstart
  | lit s => exact hm.elim
  | closing s => exact hm.elim

/-- A quote-free text in front, ending in a break: its tokens are those it has on
    its own, and what follows starts afresh. -/
theorem lexFrom_fixed {m : Mode} (hm : m.Outside) (fixed : List UInt8) (b : UInt8)
    (hfixed : quote ∉ fixed) (hb : isBreak b = true) (rest : List UInt8) :
    lexFrom m (fixed ++ b :: rest) = lexFrom m (fixed ++ [b]) ++ lex rest := by
  induction fixed generalizing m with
  | nil =>
    simp only [List.nil_append, lexFrom, step_break hm hb, finish, List.append_nil]
    rfl
  | cons a fixed ih =>
    have ha : a ≠ quote := fun h => hfixed (h ▸ List.mem_cons_self ..)
    have hrest : quote ∉ fixed := fun h => hfixed (List.mem_cons_of_mem _ h)
    simp only [List.cons_append, lexFrom, ih (step_outside hm ha) hrest, List.append_assoc]

/-! ## Literals -/

/-- The text of a literal that stands for `t`: quotes doubled. -/
def escape (t : List UInt8) : List UInt8 :=
  t.flatMap fun b => if b = quote then [quote, quote] else [b]

@[simp] theorem escape_nil : escape [] = [] := rfl

theorem escape_quote (t : List UInt8) : escape (quote :: t) = quote :: quote :: escape t := rfl

theorem escape_ne {b : UInt8} (hb : b ≠ quote) (t : List UInt8) :
    escape (b :: t) = b :: escape t := by
  simp [escape, hb]

theorem escape_append (s t : List UInt8) : escape (s ++ t) = escape s ++ escape t :=
  List.flatMap_append

theorem escape_of_noQuote {s : List UInt8} (h : quote ∉ s) : escape s = s := by
  induction s with
  | nil => rfl
  | cons b s ih =>
    have hb : b ≠ quote := fun hb => h (hb ▸ List.mem_cons_self ..)
    rw [escape_ne hb, ih fun hs => h (List.mem_cons_of_mem _ hs)]

/-- The next byte is not a quote. -/
def NoQuoteNext : List UInt8 → Prop
  | [] => True
  | b :: _ => b ≠ quote

theorem lexFrom_closing {s rest : List UInt8} (h : NoQuoteNext rest) :
    lexFrom (.closing s) rest = .str s :: lex rest := by
  cases rest with
  | nil => rfl
  | cons b rest =>
    have hb : b ≠ quote := h
    simp [lexFrom, lex, step, hb]

/-- A string without quotes is read back as it is. -/
theorem lexFrom_lit {acc s rest : List UInt8} (hs : quote ∉ s) (hrest : NoQuoteNext rest) :
    lexFrom (.lit acc) (s ++ quote :: rest) = .str (acc ++ s) :: lex rest := by
  induction s generalizing acc with
  | nil => simp [lexFrom, step, lexFrom_closing hrest]
  | cons b s ih =>
    have hb : b ≠ quote := fun h => hs (h ▸ List.mem_cons_self ..)
    have hs' : quote ∉ s := fun h => hs (List.mem_cons_of_mem _ h)
    simp [lexFrom, step, hb, ih hs']

/-- A literal that is read as `t` was written as the escaped `t`. -/
theorem text_of_lexFrom_lit {acc l t : List UInt8} {ts : List Token}
    (h : lexFrom (.lit acc) l = .str t :: ts) :
    ∃ u rest, t = acc ++ u ∧ l = escape u ++ quote :: rest ∧ NoQuoteNext rest := by
  -- the machine looks two bytes ahead at a quote, so the induction is on the length
  induction hn : l.length using Nat.strong_induction_on generalizing acc l with
  | _ n ih =>
    cases l with
    | nil => cases h
    | cons b l =>
      by_cases hb : b = quote
      · subst hb
        cases l with
        | nil =>
          simp only [lexFrom, step, if_pos, finish, List.nil_append, List.cons.injEq,
            Token.str.injEq] at h
          exact ⟨[], [], by simp [h.1], rfl, trivial⟩
        | cons b' l =>
          by_cases hb' : b' = quote
          · subst hb'
            have hrec : lexFrom (.lit (acc ++ [quote])) l = .str t :: ts := by
              simpa [lexFrom, step] using h
            obtain ⟨u, rest, ht, hl, hnext⟩ := ih l.length (by simp at hn; omega) hrec rfl
            exact ⟨quote :: u, rest, by simp [ht], by simp [hl, escape_quote], hnext⟩
          · simp only [lexFrom, step, if_pos, List.nil_append] at h
            have hstr : acc = t := by
              simp [hb'] at h
              exact h.1
            exact ⟨[], b' :: l, by simp [hstr], rfl, hb'⟩
      · have hrec : lexFrom (.lit (acc ++ [b])) l = .str t :: ts := by
          simpa [lexFrom, step, hb] using h
        obtain ⟨u, rest, ht, hl, hnext⟩ := ih l.length (by simp at hn; omega) hrec rfl
        exact ⟨b :: u, rest, by simp [ht], by simp [hl, escape_ne hb], hnext⟩

/-- Every quote that is not doubled shifts the text by one more byte, and the
    shift is never made up for. -/
theorem shifted_ne (v rest r : List UInt8) (n : Nat) (hn : 0 < n) (hrest : NoQuoteNext rest) :
    v ++ quote :: rest ≠ List.replicate n quote ++ escape v ++ quote :: r := by
  induction v generalizing n with
  | nil =>
    obtain ⟨n, rfl⟩ := Nat.exists_eq_succ_of_ne_zero (Nat.pos_iff_ne_zero.mp hn)
    intro h
    simp only [List.nil_append, List.replicate_succ, escape_nil, List.append_nil, List.cons_append,
      List.cons.injEq, true_and] at h
    subst h
    cases n with
    | zero => exact hrest rfl
    | succ n => exact hrest rfl
  | cons b v ih =>
    obtain ⟨n, rfl⟩ := Nat.exists_eq_succ_of_ne_zero (Nat.pos_iff_ne_zero.mp hn)
    intro h
    simp only [List.replicate_succ, List.cons_append, List.cons.injEq] at h
    obtain ⟨rfl, htail⟩ := h
    apply ih (n + 2) (by omega)
    rw [htail, escape_quote, List.replicate_succ', List.replicate_succ']
    simp

/-- A string pasted in unescaped is read back only if it has no quote. -/
theorem noQuote_of_lexFrom_lit {s rest : List UInt8} {ts : List Token} (hrest : NoQuoteNext rest)
    (h : lexFrom (.lit []) (s ++ quote :: rest) = .str s :: ts) : quote ∉ s := by
  intro hmem
  obtain ⟨u, r, hu, htext, -⟩ := text_of_lexFrom_lit h
  rw [List.nil_append] at hu
  subst hu
  -- cancel the text up to the first quote of the string
  obtain ⟨a, v, rfl, ha⟩ := List.eq_append_cons_of_mem hmem
  have hescape : escape (a ++ quote :: v) = a ++ quote :: quote :: escape v := by
    rw [escape_append, escape_of_noQuote ha, escape_quote]
  rw [hescape] at htext
  simp only [List.append_assoc, List.cons_append, List.append_cancel_left_eq, List.cons.injEq,
    true_and] at htext
  exact shifted_ne v rest r 1 Nat.one_pos hrest (by simpa using htext)

/-! ## Templates -/

/-- SQL text with string literals: pieces of fixed text, each followed by a
    literal, and a tail. -/
structure Template where
  parts : List (List UInt8 × List UInt8)
  tail : List UInt8
  deriving DecidableEq

namespace Template

/-- The text with the strings pasted in between quotes. -/
def text (t : Template) : List UInt8 :=
  t.parts.foldr (fun x rest => x.1 ++ quote :: (x.2 ++ quote :: rest)) t.tail

/-- What the template means: the tokens of its fixed text, and one literal for
    each string. -/
def tokens (t : Template) : List Token :=
  t.parts.foldr (fun x rest => lex x.1 ++ .str x.2 :: rest) (lex t.tail)

/-- The strings. -/
def strings (t : Template) : List (List UInt8) := t.parts.map Prod.snd

/-- Fixed text has no quotes, and in front of a literal it ends in a break. -/
structure WellFormed (t : Template) : Prop where
  parts : ∀ x ∈ t.parts, quote ∉ x.1 ∧ ∃ f b, x.1 = f ++ [b] ∧ isBreak b = true
  tail : quote ∉ t.tail

end Template

theorem lex_part {f : List UInt8} {b : UInt8} (hf : quote ∉ f ++ [b]) (hb : isBreak b = true)
    (rest : List UInt8) :
    lex (f ++ [b] ++ quote :: rest) = lex (f ++ [b]) ++ lexFrom (.lit []) rest := by
  have hf' : quote ∉ f := fun h => hf (List.mem_append_left _ h)
  have hsplit := lexFrom_fixed (m := .start) trivial f b hf' hb (quote :: rest)
  have hopen : lex (quote :: rest) = lexFrom (.lit []) rest := rfl
  rw [hopen] at hsplit
  simpa [lex] using hsplit

theorem Template.noQuoteNext {t : Template} (ht : t.WellFormed) : NoQuoteNext t.text := by
  obtain ⟨parts, tail⟩ := t
  cases parts with
  | nil =>
    cases tail with
    | nil => trivial
    | cons b tail => exact fun h => ht.tail (h ▸ List.mem_cons_self ..)
  | cons x parts =>
    obtain ⟨⟨fixed, str⟩, hx⟩ : ∃ y, y = x := ⟨x, rfl⟩
    obtain ⟨hquote, f, b, hfb, -⟩ := ht.parts x (List.mem_cons_self ..)
    subst hx
    cases fixed with
    | nil => simp at hfb
    | cons c fixed => exact fun h => hquote (h ▸ List.mem_cons_self ..)

/-! ## One statement -/

/-- The semicolon. -/
abbrev semicolon : UInt8 := 59

/-- The text is a single statement: a semicolon can only be its last token. -/
def SingleStatement (ts : List Token) : Prop :=
  ∀ a b, ts = a ++ .punct semicolon :: b → b = []

theorem mem_of_punct_mem_step {m : Mode} {a b : UInt8} (h : .punct b ∈ (step m a).1) : b = a := by
  have hstart : ∀ {a b : UInt8}, .punct b ∈ (stepStart a).1 → b = a := by
    intro a b h
    unfold stepStart at h
    split at h
    · cases h
    · split at h
      · cases h
      · split at h
        · cases h
        · simpa using h
  cases m with
  | start => exact hstart h
  | word w =>
    simp only [step] at h
    split at h
    · cases h
    · exact hstart (by simpa using h)
  | lit s =>
    simp only [step] at h
    split at h <;> cases h
  | closing s =>
    simp only [step] at h
    split at h
    · cases h
    · exact hstart (by simpa using h)

/-- Punctuation comes from the text. -/
theorem mem_of_punct_mem {m : Mode} {l : List UInt8} {b : UInt8}
    (h : .punct b ∈ lexFrom m l) : b ∈ l := by
  induction l generalizing m with
  | nil => cases m <;> simp [lexFrom, finish] at h
  | cons a l ih =>
    rcases List.mem_append.mp h with h | h
    · exact mem_of_punct_mem_step h ▸ List.mem_cons_self ..
    · exact List.mem_cons_of_mem _ (ih h)

/-- Tokens without a semicolon in front of a single statement. -/
theorem SingleStatement.append {ts us : List Token} (hts : .punct semicolon ∉ ts)
    (hus : SingleStatement us) : SingleStatement (ts ++ us) := by
  intro a b h
  rcases List.append_eq_append_iff.mp h with ⟨c, rfl, hc⟩ | ⟨c, hc, hb⟩
  · exact hus c b hc
  · cases c with
    | nil => exact hus [] b (by simpa using hb.symm)
    | cons x c =>
      simp only [List.cons_append, List.cons.injEq] at hb
      obtain ⟨rfl, -⟩ := hb
      exact absurd (hc ▸ List.mem_append_right a (List.mem_cons_self ..)) hts

/-- The tokens of a text that may end in a semicolon. -/
theorem singleStatement_tail {m : Mode} (hm : m.Outside) (l : List UInt8) (hl : semicolon ∉ l)
    (hq : quote ∉ l) : SingleStatement (lexFrom m (l ++ [semicolon])) := by
  induction l generalizing m with
  | nil =>
    have hlast : ∃ ts, lexFrom m [semicolon] = ts ++ [.punct semicolon] ∧
        .punct semicolon ∉ ts := by
      cases m with
      | start => exact ⟨[], rfl, by simp⟩
      | word w => exact ⟨[.word w], rfl, by simp⟩
      | lit s => exact hm.elim
      | closing s => exact hm.elim
    obtain ⟨ts, hts, hno⟩ := hlast
    rw [List.nil_append, hts]
    apply SingleStatement.append hno
    intro a b h
    cases a with
    | nil => simpa using h.symm
    | cons x a => simp at h
  | cons b l ih =>
    have hb : b ≠ quote := fun h => hq (h ▸ List.mem_cons_self ..)
    apply SingleStatement.append
    · intro hmem
      exact hl (mem_of_punct_mem_step hmem ▸ List.mem_cons_self ..)
    · exact ih (step_outside hm hb) (fun h => hl (List.mem_cons_of_mem _ h))
        (fun h => hq (List.mem_cons_of_mem _ h))

/-- A template has one statement if its fixed text has a semicolon at the end of
    the tail at most. -/
theorem Template.singleStatement {t : Template} (hparts : ∀ x ∈ t.parts, semicolon ∉ x.1)
    (htail : SingleStatement (lex t.tail)) : SingleStatement t.tokens := by
  obtain ⟨parts, tail⟩ := t
  induction parts with
  | nil => exact htail
  | cons x parts ih =>
    have hrest := ih (fun y hy => hparts y (List.mem_cons_of_mem _ hy)) htail
    have hx : .punct semicolon ∉ lex x.1 :=
      fun h => hparts x (List.mem_cons_self ..) (mem_of_punct_mem h)
    have htokens : (Template.mk (x :: parts) tail).tokens =
        (lex x.1 ++ [.str x.2]) ++ (Template.mk parts tail).tokens := by
      simp [tokens]
    rw [htokens]
    apply SingleStatement.append _ hrest
    simpa using hx

/-- **A text means its template** exactly when no string has a quote in it. -/
theorem Template.lex_text_iff (t : Template) (ht : t.WellFormed) :
    lex t.text = t.tokens ↔ ∀ s ∈ t.strings, quote ∉ s := by
  obtain ⟨parts, tail⟩ := t
  induction parts with
  | nil => simp [text, tokens, strings]
  | cons x parts ih =>
    obtain ⟨hx, f, b, hfb, hb⟩ := ht.parts x (List.mem_cons_self ..)
    have ht' : (Template.mk parts tail).WellFormed :=
      ⟨fun y hy => ht.parts y (List.mem_cons_of_mem _ hy), ht.tail⟩
    have hnext := noQuoteNext ht'
    have hlex : lex (Template.mk (x :: parts) tail).text =
        lex x.1 ++ lexFrom (.lit []) (x.2 ++ quote :: (Template.mk parts tail).text) := by
      have hpart := lex_part (hfb ▸ hx) hb (x.2 ++ quote :: (Template.mk parts tail).text)
      rw [← hfb] at hpart
      exact hpart
    have htokens : (Template.mk (x :: parts) tail).tokens =
        lex x.1 ++ .str x.2 :: (Template.mk parts tail).tokens := rfl
    rw [hlex, htokens, List.append_cancel_left_eq]
    simp only [strings, List.map_cons, List.forall_mem_cons] at ih ⊢
    rw [← ih ht']
    constructor
    · intro h
      have hq := noQuote_of_lexFrom_lit hnext h
      rw [lexFrom_lit hq hnext] at h
      exact ⟨hq, (List.cons.inj h).2⟩
    · rintro ⟨hq, hrest⟩
      rw [lexFrom_lit hq hnext, hrest, List.nil_append]

end SqlLex
