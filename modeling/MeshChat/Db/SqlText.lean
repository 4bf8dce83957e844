import MeshChat.Lib.CMemory
import MeshChat.Lib.SqlLex

/-! # The SQL texts with client data

    Five operations of `sql.c` paste strings of a client into their SQL text.
    `TextQuery` lists them; `TextQuery.built` is the text in the query buffer
    after `snprintf`, which cuts it off at the buffer's size.

    * `textQuery_denotes_iff`: a text that fits its buffer is a statement of its
      template's shape with exactly the supplied strings if and only if none of
      them has a quote in it.
-/

namespace MeshChat

open CMemory SqlLex

/-! ## Formatting -/

/-- `QUERY_SMALL` and `QUERY_LARGE`. -/
def querySmall : Nat := 512

def queryLarge : Nat := 8192

/-- `%` with `PRIu32` or `PRId32`. -/
def decimal (n : Int) : List UInt8 :=
  let digits := (Nat.toDigits 10 n.natAbs).map fun c => UInt8.ofNat c.toNat
  if n < 0 then 45 :: digits else digits

/-- The text of an optional id: 0 is written as `NULL`. -/
def decimalOrNull (n : UInt32) : List UInt8 :=
  if n = 0 then ascii "NULL" else decimal n.toNat

/-- The operations of `sql.c` with text arguments, with all the values of their
    query. -/
inductive TextQuery where
  | userCreate (uname password phone email : CStr)
  | userGetByUname (uname : CStr)
  | userSearchByUname (uname : CStr) (limit offset : Int32)
  | convCreate (adminId : UInt32) (name : CStr)
  | msgSend (fromUid replyTo : UInt32) (contentType : Int32) (contentLength : UInt32)
      (content : CStr) (createdAt chatId convId : UInt32)
  deriving DecidableEq

namespace TextQuery

/-- The format string, with its arguments in place. The literal of a search is
    the text between two `%`. -/
def template : TextQuery → Template
  | userCreate u p h e =>
    { parts := [(ascii "INSERT INTO users(uname, password, phone, email) VALUES (", u.bytes),
                (ascii ", ", p.bytes), (ascii ", ", h.bytes), (ascii ", ", e.bytes)]
      tail := ascii ");" }
  | userGetByUname u =>
    { parts := [(ascii "SELECT id, uname, password FROM users WHERE uname=", u.bytes)]
      tail := [] }
  | userSearchByUname u l o =>
    { parts := [(ascii "SELECT id FROM users WHERE uname LIKE ",
                 ascii "%" ++ u.bytes ++ ascii "%")]
      tail := ascii " LIMIT " ++ decimal l.toInt ++ ascii " OFFSET " ++ decimal o.toInt }
  | convCreate a n =>
    { parts := [(ascii "INSERT INTO conversations(admin_id,name) VALUES(" ++ decimal a.toNat ++
                 ascii ", ", n.bytes)]
      tail := ascii ");" }
  | msgSend f r t l s at_ chat conv =>
    { parts := [(ascii "INSERT INTO messages(from_uid, reply_to, content_type, content_length, " ++
                 ascii "content, created_at, chat_id, conv_id, type) VALUES (" ++
                 decimal f.toNat ++ ascii ", " ++ decimalOrNull r ++ ascii ", " ++
                 decimal t.toInt ++ ascii ", " ++ decimal l.toNat ++ ascii ", ", s.bytes)]
      tail := ascii ", " ++ decimal at_.toNat ++ ascii ", " ++ decimalOrNull chat ++ ascii ", " ++
              decimalOrNull conv ++ ascii ", " ++ decimal 0 ++ ascii ");" }

/-- The strings supplied by the client. -/
def strings : TextQuery → List CStr
  | userCreate u p h e => [u, p, h, e]
  | userGetByUname u => [u]
  | userSearchByUname u _ _ => [u]
  | convCreate _ n => [n]
  | msgSend _ _ _ _ s _ _ _ => [s]

/-- The size of the query buffer. -/
def room : TextQuery → Nat
  | msgSend .. => queryLarge
  | _ => querySmall

/-- The text in the query buffer: `snprintf` keeps room for the terminator. -/
def built (q : TextQuery) : List UInt8 := q.template.text.take (q.room - 1)

/-- The formatted text fits its buffer. -/
def Fits (q : TextQuery) : Prop := q.template.text.length < q.room

instance (q : TextQuery) : Decidable q.Fits := inferInstanceAs (Decidable (_ < _))

/-- No supplied string has a quote in it. -/
def QuoteFree (q : TextQuery) : Prop := ∀ s ∈ q.strings, quote ∉ s.bytes

instance (q : TextQuery) : Decidable q.QuoteFree :=
  inferInstanceAs (Decidable (∀ s ∈ q.strings, quote ∉ s.bytes))

/-- The text in the buffer is one statement of the template's shape, and its
    literals stand for the supplied strings. -/
def Denotes (q : TextQuery) : Prop :=
  lex q.built = q.template.tokens ∧ SingleStatement (lex q.built)

end TextQuery

/-! ## Fixed text

    Everything between the literals is free of quotes, and of semicolons up to
    the one at the end. -/

/-- Free of quotes and semicolons. -/
structure Plain (l : List UInt8) : Prop where
  quote : quote ∉ l
  semicolon : semicolon ∉ l

theorem Plain.append {l l' : List UInt8} (h : Plain l) (h' : Plain l') : Plain (l ++ l') :=
  ⟨fun hm => (List.mem_append.mp hm).elim h.quote h'.quote,
   fun hm => (List.mem_append.mp hm).elim h.semicolon h'.semicolon⟩

theorem mem_decimal {n : Int} {b : UInt8} (h : b ∈ decimal n) :
    b = 45 ∨ (48 ≤ b.toNat ∧ b.toNat ≤ 57) := by
  have hdigits : b ∈ (Nat.toDigits 10 n.natAbs).map (fun c => UInt8.ofNat c.toNat) →
      48 ≤ b.toNat ∧ b.toNat ≤ 57 := by
    intro h
    obtain ⟨c, hc, rfl⟩ := List.mem_map.mp h
    have hdigit : 48 ≤ c.toNat ∧ c.toNat ≤ 57 := by
      have := Nat.isDigit_of_mem_toDigits (by decide) (by decide) hc
      simpa [Char.isDigit, UInt32.le_iff_toNat_le] using this
    rw [UInt8.toNat_ofNat']
    omega
  unfold decimal at h
  dsimp only at h
  split at h
  · rcases List.mem_cons.mp h with rfl | h
    · exact Or.inl rfl
    · exact Or.inr (hdigits h)
  · exact Or.inr (hdigits h)

theorem plain_decimal (n : Int) : Plain (decimal n) := by
  constructor
  · intro h
    rcases mem_decimal h with h | ⟨h, -⟩
    · exact absurd h (by decide)
    · exact absurd h (by decide)
  · intro h
    rcases mem_decimal h with h | ⟨-, h⟩
    · exact absurd h (by decide)
    · exact absurd h (by decide)

theorem plain_decimalOrNull (n : UInt32) : Plain (decimalOrNull n) := by
  unfold decimalOrNull
  split
  · exact ⟨by decide, by decide⟩
  · exact plain_decimal _

theorem plain_comma : Plain (ascii ", ") := ⟨by decide, by decide⟩

/-- Text that may stand in front of a literal. -/
structure Opening (l : List UInt8) : Prop where
  plain : Plain l
  ends : ∃ f b, l = f ++ [b] ∧ isBreak b = true

theorem opening_comma {l : List UInt8} (h : Plain l) : Opening (l ++ ascii ", ") where
  plain := h.append plain_comma
  ends := ⟨l ++ [44], 32, by rw [List.append_assoc]; rfl, by decide⟩

namespace TextQuery

/-- The fixed text in front of every literal. -/
theorem parts_opening (q : TextQuery) : ∀ x ∈ q.template.parts, Opening x.1 := by
  have hcomma : Opening (ascii ", ") := opening_comma (l := []) ⟨by decide, by decide⟩
  cases q with
  | userCreate u p h e =>
    simp only [template, List.forall_mem_cons, List.not_mem_nil, false_implies, implies_true, and_true]
    exact ⟨⟨⟨by decide, by decide⟩,
      ascii "INSERT INTO users(uname, password, phone, email) VALUES ", 40, by decide, by decide⟩,
      hcomma, hcomma, hcomma⟩
  | userGetByUname u =>
    simp only [template, List.forall_mem_cons, List.not_mem_nil, false_implies, implies_true, and_true]
    exact ⟨⟨by decide, by decide⟩, ascii "SELECT id, uname, password FROM users WHERE uname", 61,
      by decide, by decide⟩
  | userSearchByUname u l o =>
    simp only [template, List.forall_mem_cons, List.not_mem_nil, false_implies, implies_true, and_true]
    exact ⟨⟨by decide, by decide⟩, ascii "SELECT id FROM users WHERE uname LIKE", 32, by decide,
      by decide⟩
  | convCreate a n =>
    simp only [template, List.forall_mem_cons, List.not_mem_nil, false_implies, implies_true, and_true]
    exact opening_comma (Plain.append ⟨by decide, by decide⟩ (plain_decimal _))
  | msgSend f r t l s at_ chat conv =>
    simp only [template, List.forall_mem_cons, List.not_mem_nil, false_implies, implies_true, and_true]
    refine opening_comma ?_
    refine Plain.append ?_ (plain_decimal _)
    refine Plain.append ?_ plain_comma
    refine Plain.append ?_ (plain_decimal _)
    refine Plain.append ?_ plain_comma
    refine Plain.append ?_ (plain_decimalOrNull _)
    refine Plain.append ?_ plain_comma
    refine Plain.append ?_ (plain_decimal _)
    exact Plain.append ⟨by decide, by decide⟩ ⟨by decide, by decide⟩

/-- The tail is plain up to a semicolon at its end. -/
theorem tail_plain (q : TextQuery) :
    Plain q.template.tail ∨ ∃ l, q.template.tail = l ++ [semicolon] ∧ Plain l := by
  cases q with
  | userCreate u p h e => exact Or.inr ⟨[41], rfl, by decide, by decide⟩
  | userGetByUname u => exact Or.inl ⟨by simp [template], by simp [template]⟩
  | userSearchByUname u l o =>
    refine Or.inl ?_
    refine Plain.append ?_ (plain_decimal _)
    refine Plain.append ?_ ⟨by decide, by decide⟩
    exact Plain.append ⟨by decide, by decide⟩ (plain_decimal _)
  | convCreate a n => exact Or.inr ⟨[41], rfl, by decide, by decide⟩
  | msgSend f r t l s at_ chat conv =>
    refine Or.inr ⟨ascii ", " ++ decimal at_.toNat ++ ascii ", " ++ decimalOrNull chat ++
      ascii ", " ++ decimalOrNull conv ++ ascii ", " ++ decimal 0 ++ [41], ?_, ?_⟩
    · have hend : ascii ");" = [41] ++ [semicolon] := rfl
      simp only [template, hend, List.append_assoc]
    · refine Plain.append ?_ ⟨by decide, by decide⟩
      refine Plain.append ?_ (plain_decimal _)
      refine Plain.append ?_ plain_comma
      refine Plain.append ?_ (plain_decimalOrNull _)
      refine Plain.append ?_ plain_comma
      refine Plain.append ?_ (plain_decimalOrNull _)
      refine Plain.append ?_ plain_comma
      exact plain_comma.append (plain_decimal _)

theorem template_wellFormed (q : TextQuery) : q.template.WellFormed where
  parts x hx := ⟨(q.parts_opening x hx).plain.quote, (q.parts_opening x hx).ends⟩
  tail := by
    rcases q.tail_plain with h | ⟨l, htail, hl⟩
    · exact h.quote
    · rw [htail]
      intro h
      rcases List.mem_append.mp h with h | h
      · exact hl.quote h
      · exact absurd h (by decide)

theorem template_singleStatement (q : TextQuery) : SingleStatement q.template.tokens := by
  apply Template.singleStatement
  · intro x hx
    exact (q.parts_opening x hx).plain.semicolon
  · rcases q.tail_plain with h | ⟨l, htail, hl⟩
    · intro a b hab
      have hmem : .punct semicolon ∈ lex q.template.tail := by
        rw [hab]
        exact List.mem_append_right _ (List.mem_cons_self ..)
      exact absurd (mem_of_punct_mem hmem) h.semicolon
    · rw [htail]
      exact singleStatement_tail (m := .start) trivial l hl.semicolon hl.quote

/-- The template's literals are quote-free exactly when the supplied strings are. -/
theorem template_strings (q : TextQuery) :
    (∀ s ∈ q.template.strings, quote ∉ s) ↔ q.QuoteFree := by
  cases q with
  | userSearchByUname u l o =>
    have hpercent : quote ∉ ascii "%" := by decide
    simp [template, Template.strings, QuoteFree, strings, hpercent]
  | _ => simp [template, Template.strings, QuoteFree, strings]

theorem built_of_fits {q : TextQuery} (h : q.Fits) : q.built = q.template.text := by
  unfold Fits at h
  exact List.take_of_length_le (by omega)

end TextQuery

/-- **When SQL text denotes the request's data.** For every operation with text
    arguments and all its arguments, if the text fits the query buffer then it
    lexes as one statement of the template's shape with exactly the supplied
    strings if and only if none of these has a quote in it. -/
theorem textQuery_denotes_iff (q : TextQuery) (hfits : q.Fits) : q.Denotes ↔ q.QuoteFree := by
  unfold TextQuery.Denotes
  rw [TextQuery.built_of_fits hfits, ← q.template_strings,
    ← Template.lex_text_iff q.template q.template_wellFormed]
  constructor
  · exact fun h => h.1
  · intro h
    exact ⟨h, by rw [h]; exact q.template_singleStatement⟩

/-- A group name that fits and has no quote. -/
theorem textQuery_denotes_convCreate :
    (TextQuery.convCreate 1 (.ofBytes (ascii "friends"))).Denotes :=
  (textQuery_denotes_iff _ (by decide)).mpr (by decide)

/-- An apostrophe in a group name ends the literal. -/
theorem convCreate_quote_not_denotes :
    (TextQuery.convCreate 1 (.ofBytes (ascii "it's us"))).Fits ∧
      ¬ (TextQuery.convCreate 1 (.ofBytes (ascii "it's us"))).Denotes := by
  refine ⟨by decide, ?_⟩
  rintro ⟨h, -⟩
  exact absurd h (by decide)

end MeshChat
