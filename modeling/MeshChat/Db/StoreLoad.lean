import MeshChat.Db.SqlServed

/-! # What is stored is loaded

    A record goes to sqlite as the text of an `INSERT`, lies in a table, and comes
    back by the positions of the columns of a `SELECT *`.

    * `readInsert`: the table, the names and the values that the tokens of an
      `INSERT` stand for. `Spells` says which text stands for which value, and
      `readValues_valuesText` reads a whole list.
    * `Record`: the four kinds of record with the function that stores one, its
      text, and the function that loads one.
    * `store_then_load`: what was stored is loaded, through text, table and
      columns.
-/

namespace MeshChat

open CMemory SqlLex Prog

/-! ## The text of an insert -/

/-- One value and what follows it. -/
def readValue : List Token → Option (Val × List Token)
  | .str s :: ts => some (.text (.ofBytes s), ts)
  | .word w :: ts =>
    if w = ascii "NULL" then some (.null, ts)
    else (signedNumber (.word w :: ts)).map fun x => (.int x.1, x.2)
  | ts => (signedNumber ts).map fun x => (.int x.1, x.2)

/-- At most `n` values between commas, up to the closing parenthesis. -/
def readValues : Nat → List Token → Option (List Val × List Token)
  | 0, _ => none
  | n + 1, ts =>
    match readValue ts with
    | some (v, .punct 44 :: ts) => (readValues n ts).map fun x => (v :: x.1, x.2)
    | some (v, .punct 41 :: ts) => some ([v], ts)
    | _ => none

/-- Names between commas, up to the closing parenthesis. -/
def readNames : List Token → Option (List (List UInt8) × List Token)
  | .word w :: .punct 44 :: ts => (readNames ts).map fun x => (w :: x.1, x.2)
  | .word w :: .punct 41 :: ts => some ([w], ts)
  | _ => none

/-- An `INSERT` with one value for each name. -/
structure Insert where
  table : List UInt8
  names : List (List UInt8)
  values : List Val
  deriving DecidableEq

/-- The end of an `INSERT` behind its values. -/
def closeInsert (table : List UInt8) (names : List (List UInt8)) :
    Option (List Val × List Token) → Option Insert
  | some (vs, [.punct 59]) => some ⟨table, names, vs⟩
  | _ => none

/-- The `INSERT` that tokens stand for. -/
def readInsert : List Token → Option Insert
  | .word insert :: .word into :: .word table :: .punct 40 :: ts =>
    if insert = ascii "INSERT" ∧ into = ascii "INTO" then
      match readNames ts with
      | some (names, .word values :: .punct 40 :: ts) =>
        if values = ascii "VALUES" then closeInsert table names (readValues names.length ts)
        else none
      | _ => none
    else none
  | _ => none

/-- Text that stands for a value in front of a comma or the closing parenthesis. -/
def Spells (text : List UInt8) (v : Val) : Prop :=
  ∀ b rest, b = 44 ∨ b = 41 → ∃ ts, lex (text ++ b :: rest) = ts ++ .punct b :: lex rest ∧
    ∀ us, readValue (ts ++ us) = some (v, us)

/-! ### Numbers -/

/-- The digits of a number. -/
def digits (n : Nat) : List UInt8 := (Nat.toDigits 10 n).map fun c => UInt8.ofNat c.toNat

theorem toNat_of_mem_toDigits {n : Nat} {c : Char} (h : c ∈ Nat.toDigits 10 n) :
    48 ≤ c.toNat ∧ c.toNat ≤ 57 := by
  have hdigit := Nat.isDigit_of_mem_toDigits (by decide) (by decide) h
  simpa [Char.isDigit, UInt32.le_iff_toNat_le] using hdigit

theorem isDigit_digits {n : Nat} {b : UInt8} (h : b ∈ digits n) : 48 ≤ b.toNat ∧ b.toNat ≤ 57 := by
  obtain ⟨c, hc, rfl⟩ := List.mem_map.mp h
  have hdigit := toNat_of_mem_toDigits hc
  rw [UInt8.toNat_ofNat']
  omega

theorem digits_ne_nil (n : Nat) : digits n ≠ [] := by
  simp [digits, Nat.toDigits_ne_nil]

/-- The digits of a number are read back as the number. -/
theorem number?_digits (n : Nat) : Token.number? (.word (digits n)) = some n := by
  have hall : (digits n).all (fun b => 48 ≤ b && b ≤ 57) = true := by
    rw [List.all_eq_true]
    intro b hb
    obtain ⟨h₁, h₂⟩ := isDigit_digits hb
    simp [UInt8.le_iff_toNat_le, h₁, h₂]
  have hvalue : ∀ (l : List Char) (init : Nat), (∀ c ∈ l, c.toNat < 256) →
      (l.map fun c => UInt8.ofNat c.toNat).foldl (fun n b => n * 10 + (b.toNat - 48)) init =
        Nat.ofDigitChars 10 l init := by
    intro l
    induction l with
    | nil => intro init _; simp
    | cons c l ih =>
      intro init hl
      have hc : c.toNat < 256 := hl c (List.mem_cons_self ..)
      rw [List.map_cons, List.foldl_cons, ih _ fun c hc => hl c (List.mem_cons_of_mem _ hc),
        Nat.ofDigitChars_cons, UInt8.toNat_ofNat', Nat.mod_eq_of_lt hc, Nat.mul_comm]
      rfl
  have hsmall : ∀ c ∈ Nat.toDigits 10 n, c.toNat < 256 := by
    intro c hc
    have hdigit := toNat_of_mem_toDigits hc
    omega
  have hword : Token.number? (.word (digits n)) =
      some ((digits n).foldl (fun n b => n * 10 + (b.toNat - 48)) 0) :=
    if_pos ⟨digits_ne_nil n, hall⟩
  rw [hword, digits, hvalue _ _ hsmall, Nat.ofDigitChars_toDigits (by decide) (by decide)]

theorem isWordByte_digits {n : Nat} {b : UInt8} (h : b ∈ digits n) : isWordByte b = true := by
  obtain ⟨h₁, h₂⟩ := isDigit_digits h
  simp [isWordByte, UInt8.le_iff_toNat_le, h₁, h₂]

/-- The punctuation behind a value. -/
theorem lexFrom_word {w l : List UInt8} {b : UInt8} (hl : ∀ a ∈ l, isWordByte a = true)
    (hb : b = 44 ∨ b = 41) (rest : List UInt8) :
    lexFrom (.word w) (l ++ b :: rest) = .word (w ++ l) :: .punct b :: lex rest := by
  induction l generalizing w with
  | nil =>
    rw [List.append_nil]
    rcases hb with rfl | rfl <;> rfl
  | cons a l ih =>
    have ha := hl a (List.mem_cons_self ..)
    have hrest := ih (w := w ++ [a]) fun x hx => hl x (List.mem_cons_of_mem _ hx)
    simpa [lexFrom, step, ha] using hrest

/-- A word at the start of the text. -/
theorem lex_word {l : List UInt8} {b : UInt8} (hne : l ≠ []) (hl : ∀ a ∈ l, isWordByte a = true)
    (hb : b = 44 ∨ b = 41) (rest : List UInt8) :
    lex (l ++ b :: rest) = .word l :: .punct b :: lex rest := by
  obtain ⟨a, l, rfl⟩ := List.exists_cons_of_ne_nil hne
  have ha := hl a (List.mem_cons_self ..)
  have hspace : isSpace a = false := by
    by_contra h
    simp only [isSpace, isWordByte, UInt8.le_iff_toNat_le, ← UInt8.toNat_inj, Bool.or_eq_true,
      Bool.and_eq_true, decide_eq_true_eq, Bool.not_eq_false] at h ha
    simp at h ha
    omega
  have hquote : a ≠ quote := by
    rintro rfl
    cases ha
  have htail := lexFrom_word (w := [a]) (fun x hx => hl x (List.mem_cons_of_mem _ hx)) hb rest
  simpa [lex, lexFrom, step, stepStart, hspace, hquote, ha] using htail

theorem digits_ne_null (n : Nat) : digits n ≠ ascii "NULL" := by
  intro h
  have hmem : (78 : UInt8) ∈ digits n := by
    rw [h]
    decide
  exact absurd (isDigit_digits hmem).2 (by decide)

/-- `%u` and `%d`. -/
theorem spells_decimal (n : Int) : Spells (decimal n) (.int n) := by
  intro b rest hb
  have hlex := lex_word (digits_ne_nil n.natAbs) (fun a => isWordByte_digits) hb rest
  by_cases hneg : n < 0
  · have hdecimal : decimal n = 45 :: digits n.natAbs := if_pos hneg
    refine ⟨[.punct 45, .word (digits n.natAbs)], ?_, ?_⟩
    · rw [hdecimal, List.cons_append]
      exact congrArg (.punct 45 :: ·) hlex
    · intro us
      have hvalue : -(n.natAbs : Int) = n := by omega
      have hsigned : signedNumber (.punct 45 :: .word (digits n.natAbs) :: us) = some (n, us) := by
        rw [signedNumber, number?_digits]
        show some (-(n.natAbs : Int), us) = _
        rw [hvalue]
      show (signedNumber (.punct 45 :: .word (digits n.natAbs) :: us)).map _ = _
      rw [hsigned]
      rfl
  · have hdecimal : decimal n = digits n.natAbs := if_neg hneg
    refine ⟨[.word (digits n.natAbs)], ?_, ?_⟩
    · rw [hdecimal]
      exact hlex
    · intro us
      have hvalue : (n.natAbs : Int) = n := by omega
      have hsigned : signedNumber (.word (digits n.natAbs) :: us) = some (n, us) := by
        rw [signedNumber, number?_digits]
        · show some ((n.natAbs : Int), us) = _
          rw [hvalue]
        · simp
      rw [List.singleton_append, readValue, if_neg (digits_ne_null _), hsigned]
      rfl

/-- An id, or `NULL` for 0. -/
theorem spells_decimalOrNull (n : UInt32) : Spells (decimalOrNull n) (.ofOption (nullable n)) := by
  unfold decimalOrNull nullable
  split
  · intro b rest hb
    exact ⟨[.word (ascii "NULL")], lex_word (by decide) (by decide +kernel) hb rest,
      fun us => rfl⟩
  · exact spells_decimal n.toNat

/-! ### Literals and lists -/

/-- `'%s'`. -/
theorem spells_literal {s : CStr} (hs : quote ∉ s.bytes) :
    Spells (quote :: (s.bytes ++ [quote])) (.text s) := by
  intro b rest hb
  refine ⟨[.str s.bytes], ?_, ?_⟩
  · have hnext : NoQuoteNext (b :: rest) := by
      show b ≠ quote
      rcases hb with rfl | rfl <;> decide
    have hopen : lex (quote :: (s.bytes ++ [quote]) ++ b :: rest) =
        lexFrom (.lit []) (s.bytes ++ [quote] ++ b :: rest) := rfl
    have hpunct : lex (b :: rest) = .punct b :: lex rest := by
      rcases hb with rfl | rfl <;> rfl
    rw [hopen, List.append_assoc, List.singleton_append, lexFrom_lit hs hnext, hpunct]
    rfl
  · intro us
    show some (Val.text (.ofBytes s.bytes), us) = _
    rw [CStr.ofBytes_bytes]

/-- The end of an `INSERT`: values between commas. -/
def valuesText : List (List UInt8) → List UInt8
  | [] => ascii ");"
  | [l] => l ++ ascii ");"
  | l :: ls => l ++ ascii ", " ++ valuesText ls

/-- A list of values is read back. -/
theorem readValues_valuesText {ls : List (List UInt8)} {vs : List Val}
    (h : List.Forall₂ Spells ls vs) (hne : ls ≠ []) :
    readValues ls.length (lex (valuesText ls)) = some (vs, [.punct 59]) := by
  induction h with
  | nil => exact absurd rfl hne
  | @cons l v ls vs hl hls ih =>
    cases hls with
    | nil =>
      obtain ⟨ts, hlex, hread⟩ := hl 41 [59] (Or.inr rfl)
      have htext : lex (valuesText [l]) = ts ++ .punct 41 :: lex [59] := hlex
      rw [htext, List.length_singleton, readValues, hread]
      rfl
    | @cons l' v' ls vs hl' hls =>
      obtain ⟨ts, hlex, hread⟩ := hl 44 (32 :: valuesText (l' :: ls)) (Or.inl rfl)
      have htext : valuesText (l :: l' :: ls) = l ++ 44 :: 32 :: valuesText (l' :: ls) := by
        show l ++ ascii ", " ++ valuesText (l' :: ls) = _
        rw [List.append_assoc]
        rfl
      have hspace : lex (32 :: valuesText (l' :: ls)) = lex (valuesText (l' :: ls)) := rfl
      have hrest := ih (by simp)
      rw [htext, hlex, hspace, List.length_cons, readValues, hread]
      show (readValues (l' :: ls).length (lex (valuesText (l' :: ls)))).map _ = _
      rw [hrest]
      rfl

/-! ## Records -/

/-- A record to store; `now` is what `time(NULL)` returns. -/
inductive Record where
  | user (uname password phone email : CStr)
  | conv (adminId : UInt32) (name : CStr)
  | chat (member1 member2 : UInt32)
  | msg (m : MsgSchema) (now : UInt32)

/-- A record that was loaded. -/
inductive Schema where
  | user (s : UserSchema)
  | conv (s : ConvSchema)
  | chat (s : ChatSchema)
  | msg (s : MsgSchema)
  deriving DecidableEq

/-- What a function that loads a record returns, as a `Schema`. -/
def Schema.found {α : Type} (kind : α → Schema) (x : Option α × Rc) : Option Schema × Rc :=
  (x.1.map kind, x.2)

namespace Record

/-- The function that stores the record. -/
def store : Record → SqlProg (UInt32 × Rc)
  | user u p h e => userCreate u p h e
  | conv a n => convCreate a n
  | chat a b => chatCreate a b
  | msg m now => msgSend m now

/-- The function that loads records of this kind. -/
def load : Record → UInt32 → SqlProg (Option Schema × Rc)
  | user .., id => Schema.found .user <$> userGetById id
  | conv .., id => Schema.found .conv <$> convGetInfo id
  | chat .., id => Schema.found .chat <$> chatGetInfo id
  | msg .., id => Schema.found .msg <$> msgGetDetail id

/-- The query behind it. -/
def query : Record → Nat → Query
  | user .., n => .userById n
  | conv .., n => .convById n
  | chat .., n => .chatById n
  | msg .., n => .messageById n

/-- The record as it should come back; its type is `MSG_SENT`. -/
def stored : Record → UInt32 → Schema
  | user u p h e, id => .user ⟨id, u, p, h, e⟩
  | conv a n, id => .conv ⟨id, a, n⟩
  | chat a b, id => .chat ⟨id, a, b⟩
  | msg m now, id => .msg { m with id, createdAt := now, type := 0 }

/-- The format with client text; that of `chat_create` has none. -/
def textQuery? : Record → Option TextQuery
  | user u p h e => some (.userCreate u p h e)
  | conv a n => some (.convCreate a n)
  | chat .. => none
  | msg m now => some (m.textQuery now)

def QuoteFree (r : Record) : Prop := ∀ q ∈ r.textQuery?, q.QuoteFree

/-- The text fits the query buffer. -/
def Fits (r : Record) : Prop := ∀ q ∈ r.textQuery?, q.Fits

/-- The text in the query buffer. -/
def text : Record → List UInt8
  | user u p h e => (TextQuery.userCreate u p h e).built
  | conv a n => (TextQuery.convCreate a n).built
  | chat a b =>
    ascii "INSERT INTO chats(member1, member2) VALUES (" ++ decimal a.toNat ++ ascii ", " ++
      decimal b.toNat ++ ascii ");"
  | msg m now => (m.textQuery now).built

/-- The ids in use in the table of the record. -/
def ids : Record → Db → List Nat
  | user .., db => db.users.map (·.id)
  | conv .., db => db.conversations.map (·.id)
  | chat .., db => db.chats.map (·.id)
  | msg .., db => db.messages.map (·.id)

/-- The table, and its columns behind the id, in the order of `CREATE TABLE`. -/
def table : Record → List UInt8
  | user .. => ascii "users"
  | conv .. => ascii "conversations"
  | chat .. => ascii "chats"
  | msg .. => ascii "messages"

def columns : Record → List (List UInt8)
  | user .. => [ascii "uname", ascii "password", ascii "phone", ascii "email"]
  | conv .. => [ascii "admin_id", ascii "name"]
  | chat .. => [ascii "member1", ascii "member2"]
  | msg .. =>
    [ascii "from_uid", ascii "reply_to", ascii "content_type", ascii "content_length",
     ascii "content", ascii "created_at", ascii "chat_id", ascii "conv_id", ascii "type"]

/-- The values of these columns. -/
def values : Record → List Val
  | user u p h e => [.text u, .text p, .text h, .text e]
  | conv a n => [.int a.toNat, .text n]
  | chat a b => [.int a.toNat, .int b.toNat]
  | msg m now =>
    [.int m.fromUid.toNat, .ofOption (nullable m.replyTo), .int m.contentType.toInt,
     .int m.contentLength.toNat, .text m.content, .int now.toNat, .ofOption (nullable m.chatId),
     .ofOption (nullable m.convId), .int 0]

/-! ### The text says the values -/

/-- The tokens of an `INSERT` up to its values, and the values. -/
theorem readInsert_values {header : List UInt8} {t : List UInt8} {names : List (List UInt8)}
    {ls : List (List UInt8)} {vs : List Val}
    (hheader : ∀ ts, readInsert (lex header ++ ts) =
      closeInsert t names (readValues names.length ts))
    (hopen : ∃ f, header = f ++ [40] ∧ quote ∉ f) (hvalues : List.Forall₂ Spells ls vs)
    (hlength : names.length = ls.length) (hne : ls ≠ []) :
    readInsert (lex (header ++ valuesText ls)) = some ⟨t, names, vs⟩ := by
  obtain ⟨f, rfl, hf⟩ := hopen
  have hlex : lex (f ++ [40] ++ valuesText ls) = lex (f ++ [40]) ++ lex (valuesText ls) := by
    rw [List.append_assoc, List.singleton_append]
    exact lexFrom_fixed (m := .start) trivial f 40 hf (by decide) (valuesText ls)
  rw [hlex, hheader, hlength, readValues_valuesText hvalues hne]
  rfl

theorem readInsert_user {u p h e : CStr} (hfree : (user u p h e).QuoteFree)
    (hfits : (user u p h e).Fits) :
    readInsert (lex (user u p h e).text) =
      some ⟨(user u p h e).table, (user u p h e).columns, (user u p h e).values⟩ := by
  have hquotes := hfree _ rfl
  simp only [TextQuery.QuoteFree, TextQuery.strings, List.forall_mem_cons] at hquotes
  obtain ⟨hu, hp, hh, he, -⟩ := hquotes
  have htext : (user u p h e).text =
      ascii "INSERT INTO users(uname, password, phone, email) VALUES (" ++
        valuesText [quote :: (u.bytes ++ [quote]), quote :: (p.bytes ++ [quote]),
          quote :: (h.bytes ++ [quote]), quote :: (e.bytes ++ [quote])] := by
    rw [text, TextQuery.built_of_fits (hfits _ rfl)]
    simp [TextQuery.template, Template.text, valuesText, ascii]
  rw [htext]
  refine readInsert_values (fun ts => rfl)
    ⟨ascii "INSERT INTO users(uname, password, phone, email) VALUES ", by decide, by decide⟩
    ?_ rfl (by simp)
  exact .cons (spells_literal hu) (.cons (spells_literal hp) (.cons (spells_literal hh)
    (.cons (spells_literal he) .nil)))

theorem readInsert_conv {a : UInt32} {n : CStr} (hfree : (conv a n).QuoteFree)
    (hfits : (conv a n).Fits) :
    readInsert (lex (conv a n).text) =
      some ⟨(conv a n).table, (conv a n).columns, (conv a n).values⟩ := by
  have hquotes := hfree _ rfl
  simp only [TextQuery.QuoteFree, TextQuery.strings, List.forall_mem_cons] at hquotes
  have htext : (conv a n).text = ascii "INSERT INTO conversations(admin_id,name) VALUES(" ++
      valuesText [decimal a.toNat, quote :: (n.bytes ++ [quote])] := by
    rw [text, TextQuery.built_of_fits (hfits _ rfl)]
    simp [TextQuery.template, Template.text, valuesText]
  rw [htext]
  refine readInsert_values (fun ts => rfl)
    ⟨ascii "INSERT INTO conversations(admin_id,name) VALUES", by decide, by decide⟩
    ?_ rfl (by simp)
  exact .cons (spells_decimal _) (.cons (spells_literal hquotes.1) .nil)

/-- The statement for a chat has no strings. -/
theorem readInsert_chat (a b : UInt32) :
    readInsert (lex (chat a b).text) =
      some ⟨(chat a b).table, (chat a b).columns, (chat a b).values⟩ := by
  have htext : (chat a b).text = ascii "INSERT INTO chats(member1, member2) VALUES (" ++
      valuesText [decimal a.toNat, decimal b.toNat] := by
    simp [text, valuesText]
  rw [htext]
  refine readInsert_values (fun ts => rfl)
    ⟨ascii "INSERT INTO chats(member1, member2) VALUES ", by decide, by decide⟩ ?_ rfl (by simp)
  exact .cons (spells_decimal _) (.cons (spells_decimal _) .nil)

theorem readInsert_msg {m : MsgSchema} {now : UInt32} (hfree : (msg m now).QuoteFree)
    (hfits : (msg m now).Fits) :
    readInsert (lex (msg m now).text) =
      some ⟨(msg m now).table, (msg m now).columns, (msg m now).values⟩ := by
  have hquotes := hfree _ rfl
  simp only [MsgSchema.textQuery, TextQuery.QuoteFree, TextQuery.strings,
    List.forall_mem_cons] at hquotes
  have htext : (msg m now).text =
      (ascii "INSERT INTO messages(from_uid, reply_to, content_type, content_length, " ++
        ascii "content, created_at, chat_id, conv_id, type) VALUES (") ++
      valuesText [decimal m.fromUid.toNat, decimalOrNull m.replyTo, decimal m.contentType.toInt,
        decimal m.contentLength.toNat, quote :: (m.content.bytes ++ [quote]), decimal now.toNat,
        decimalOrNull m.chatId, decimalOrNull m.convId, decimal 0] := by
    rw [text, TextQuery.built_of_fits (hfits _ rfl)]
    simp [MsgSchema.textQuery, TextQuery.template, Template.text, valuesText]
  rw [htext]
  refine readInsert_values (fun ts => rfl)
    ⟨ascii "INSERT INTO messages(from_uid, reply_to, content_type, content_length, " ++
      ascii "content, created_at, chat_id, conv_id, type) VALUES ", by decide, by decide⟩
    ?_ rfl (by simp)
  exact .cons (spells_decimal _) (.cons (spells_decimalOrNull _) (.cons (spells_decimal _)
    (.cons (spells_decimal _) (.cons (spells_literal hquotes.1) (.cons (spells_decimal _)
      (.cons (spells_decimalOrNull _) (.cons (spells_decimalOrNull _)
        (.cons (spells_decimal 0) .nil))))))))

theorem readInsert_text {r : Record} (hfree : r.QuoteFree) (hfits : r.Fits) :
    readInsert (lex r.text) = some ⟨r.table, r.columns, r.values⟩ := by
  cases r with
  | user u p h e => exact readInsert_user hfree hfits
  | conv a n => exact readInsert_conv hfree hfits
  | chat a b => exact readInsert_chat a b
  | msg m now => exact readInsert_msg hfree hfits

end Record

/-! ## The new row -/

variable {c c' : Conn}

/-- A new id is that of the new row alone. -/
theorem filter_snoc_nextId {α : Type} {l : List α} {f : α → Nat} {a : α}
    (ha : f a = nextId (l.map f)) : (l ++ [a]).filter (fun x => f x = nextId (l.map f)) = [a] := by
  have hold : l.filter (fun x => f x = nextId (l.map f)) = [] := by
    rw [List.filter_eq_nil_iff]
    intro x hx heq
    have hlt : f x < nextId (l.map f) := lt_nextId (List.mem_map_of_mem hx)
    rw [of_decide_eq_true heq] at hlt
    exact lt_irrefl _ hlt
  simp [List.filter_append, hold, ha]

/-- `chat_create` that reports `SQLITE_OK`. -/
theorem runs_chatCreate_ok {a b id : UInt32} (h : Runs Answers c (chatCreate a b) c' (id, .ok)) :
    ∃ fk n, c.db.insertChat fk a.toNat b.toNat = some (c'.db, some n) ∧ id = UInt32.ofNat n := by
  obtain ⟨c₁, r₁, hpragma, -, -, ⟨-, -, n, hinsert, hid⟩ | ⟨hrc, -⟩⟩ := runs_chatCreate_step h
  · refine ⟨c₁.fk, n, ?_, hid⟩
    rw [← answers_pragma_db hpragma]
    exact hinsert
  · exact absurd rfl hrc

/-- `msg_send` that reports `SQLITE_OK`. -/
theorem runs_msgSend_ok {msg : MsgSchema} {now id : UInt32}
    (hquote : quote ∉ msg.content.bytes) (h : Runs Answers c (msgSend msg now) c' (id, .ok)) :
    ∃ fk n, c.db.insertMessage fk (msg.newMsg now) = some (c'.db, some n) ∧
      id = UInt32.ofNat n := by
  obtain ⟨c₁, r₁, hpragma, -, -, ⟨-, -, -, n, hinsert, hid⟩ | ⟨hrc, -⟩⟩ :=
    runs_msgSend_step hquote h
  · refine ⟨c₁.fk, n, ?_, hid⟩
    rw [← answers_pragma_db hpragma]
    exact hinsert
  · exact absurd rfl hrc

/-- Inside a transaction `conv_create` fails at its `BEGIN`. -/
theorem idle_of_convCreate {adminId id : UInt32} {name : CStr}
    (h : Runs Answers c (convCreate adminId name) c' (id, .ok)) : c.saved = none := by
  simp only [convCreate, invoke_bind, pure_eq, runs_call] at h
  obtain ⟨c₁, r₁, hbegin, h⟩ := h
  by_contra hopen
  have hsome : c.saved.isSome = true := Option.isSome_iff_ne_none.mpr hopen
  have hmodel : SqlCall.Modelled (.exec [.pragmaForeignKeysOn, .begin]) := by
    simp [SqlCall.Modelled]
  have hfail : r₁.rc ≠ .ok := by
    cases hbegin with
    | served _ h =>
      simp only [answer, execAll, Stmt.run, hsome, if_true, Option.some.injEq, Prod.mk.injEq] at h
      rw [← h.2]
      simp
    | execFault k _ _ _ _ hrc => exact hrc.1
    | foreign hforeign _ => exact absurd hmodel hforeign
  rw [if_pos hfail] at h
  obtain ⟨-, heq⟩ := runs_ret.mp h
  exact hfail (congrArg Prod.snd heq).symm

namespace Db

variable {db db' : Db} {n : Nat}

theorem rows_insertUser {u p h e : CStr} (hinsert : db.insertUser u p h e = some (db', some n)) :
    n = nextId (db.users.map (·.id)) ∧
      (Query.userById n).rows db' = [[.int n, .text u, .text p, .text h, .text e]] := by
  cases insertRow_eq_some hinsert
  refine ⟨rfl, ?_⟩
  simp only [Query.rows]
  rw [filter_snoc_nextId (f := fun r : UserRow => r.id)]
  · rfl
  · rfl

theorem rows_insertConversation {fk : Bool} {a : Nat} {name : CStr}
    (hinsert : db.insertConversation fk a name = some (db', some n)) :
    n = nextId (db.conversations.map (·.id)) ∧
      (Query.convById n).rows db' = [[.int n, .int a, .text name]] := by
  cases insertRow_eq_some hinsert
  refine ⟨rfl, ?_⟩
  simp only [Query.rows]
  rw [filter_snoc_nextId (f := fun r : ConvRow => r.id)]
  · rfl
  · rfl

theorem rows_insertChat {fk : Bool} {a b : Nat}
    (hinsert : db.insertChat fk a b = some (db', some n)) :
    n = nextId (db.chats.map (·.id)) ∧ (Query.chatById n).rows db' = [[.int n, .int a, .int b]] := by
  cases insertRow_eq_some hinsert
  refine ⟨rfl, ?_⟩
  simp only [Query.rows]
  rw [filter_snoc_nextId (f := fun r : ChatRow => r.id)]
  · rfl
  · rfl

theorem rows_insertMessage {fk : Bool} {m : NewMsg}
    (hinsert : db.insertMessage fk m = some (db', some n)) :
    n = nextId (db.messages.map (·.id)) ∧ (Query.messageById n).rows db' =
      [[.int n, .int m.fromUid, .ofOption m.replyTo, .int m.contentType, .int m.contentLength,
        .text m.content, .int m.createdAt, .ofOption m.chatId, .ofOption m.convId, .int 0]] := by
  cases insertRow_eq_some hinsert
  refine ⟨rfl, ?_⟩
  simp only [Query.rows]
  rw [filter_snoc_nextId (f := fun r : MsgRow => r.id)]
  · rfl
  · rfl

end Db

/-- A record that is reported as stored is the only row of its id. -/
theorem Record.store_row {r : Record} {id : UInt32} (hfree : r.QuoteFree)
    (hrun : Runs Answers c r.store c' (id, .ok)) :
    ∃ n, n = nextId (r.ids c.db) ∧ id = UInt32.ofNat n ∧
      (r.query n).rows c'.db = [.int n :: r.values] := by
  cases r with
  | user u p h e =>
    have hquotes := hfree _ rfl
    obtain ⟨-, -, ⟨-, n, happly, hid⟩ | ⟨hrc, -⟩⟩ :=
      runs_sqlInsert (TextQuery.isInsert hquotes rfl) hrun
    · obtain ⟨hn, hrows⟩ := Db.rows_insertUser (TextQuery.apply_insertStmt hquotes happly).2
      exact ⟨n, hn, hid, hrows⟩
    · exact absurd rfl hrc
  | conv a name =>
    have hquotes := hfree _ rfl
    simp only [TextQuery.QuoteFree, TextQuery.strings, List.forall_mem_cons] at hquotes
    obtain ⟨-, ⟨-, -, n, ⟨-, db₁, k, hconv, hmember⟩, hid⟩ | ⟨hrc, -⟩⟩ :=
      runs_convCreate hquotes.1 (idle_of_convCreate hrun) hrun
    · obtain ⟨hn, hrows⟩ := Db.rows_insertConversation hconv
      -- the insert of the member leaves the conversations alone
      have hsame : c'.db.conversations = db₁.conversations :=
        congrArg (fun x => x.1.conversations) (Db.insertRow_eq_some hmember)
      refine ⟨n, hn, hid, ?_⟩
      show (c'.db.conversations.filter _).map _ = _
      rw [hsame]
      exact hrows
    · exact absurd rfl hrc
  | chat a b =>
    obtain ⟨fk, n, hinsert, hid⟩ := runs_chatCreate_ok hrun
    obtain ⟨hn, hrows⟩ := Db.rows_insertChat hinsert
    exact ⟨n, hn, hid, hrows⟩
  | msg m now =>
    have hquotes := hfree _ rfl
    simp only [MsgSchema.textQuery, TextQuery.QuoteFree, TextQuery.strings,
      List.forall_mem_cons] at hquotes
    obtain ⟨fk, n, hinsert, hid⟩ := runs_msgSend_ok hquotes.1 hrun
    obtain ⟨hn, hrows⟩ := Db.rows_insertMessage hinsert
    exact ⟨n, hn, hid, hrows⟩

/-! ## Loading -/

/-- A function that loads a record returns `s` when no call fails. When one does, it reports an
    error and no record. -/
structure Loads (c : Conn) (p : SqlProg (Option Schema × Rc)) (s : Schema) : Prop where
  served : Runs Serves c p c (some s, .ok)
  only : ∀ c' x, Runs Answers c p c' x →
    c' = c ∧ (x = (some s, .ok) ∨ x.1 = none ∧ sqlIsErr x.2 = true)

/-- The one row of a query is loaded. -/
theorem loads_of_rows {α : Type} {q : Query} {f : List Val → α} {kind : α → Schema}
    {cols : List Val} (hrows : q.rows c.db = [cols]) {s : Schema} (hs : kind (f cols) = s) :
    Loads c (Schema.found kind <$> sqlGetInfo q f) s := by
  subst hs
  have hsound : q.Sound := Query.sound_of_rows (by rw [hrows]; simp)
  constructor
  · have hserved := served_sqlGetInfo (c := c) hsound f
    rw [Query.first, hrows] at hserved
    exact runs_map.mpr ⟨_, hserved, rfl⟩
  · intro c' x hrun
    obtain ⟨⟨a, rc⟩, hinfo, rfl⟩ := runs_map.mp hrun
    obtain ⟨rfl, ⟨cols', hcols, rfl, rfl⟩ | ⟨rfl, hrc⟩⟩ := runs_sqlGetInfo hsound.modelled hinfo
    · rw [hrows] at hcols
      cases hcols
      exact ⟨rfl, Or.inl rfl⟩
    · refine ⟨rfl, Or.inr ⟨rfl, ?_⟩⟩
      rcases hrc with ⟨-, hempty⟩ | herr
      · rw [hrows] at hempty
        cases hempty
      · exact herr

/-- A signed value survives the conversions. -/
theorem columnInt_toInt32 (n : Int32) : (Val.int n.toInt).columnInt.toInt32 = n := by
  apply Int32.toBitVec.inj
  apply BitVec.eq_of_toInt_eq
  have hlow := n.le_toInt
  have hhigh := n.toInt_lt
  have hread : (BitVec.ofNat 32 (n.toInt % 2 ^ 32).toNat).toInt = n.toInt := by
    rw [BitVec.toInt_ofNat', Int.toNat_of_nonneg (by omega), Int.bmod]
    omega
  exact hread

theorem columnInt_sent : (Val.int 0).columnInt.toInt32 = 0 := by decide

/-- 0 is stored as `NULL`, and `NULL` is loaded as 0. -/
theorem columnInt_nullable (n : UInt32) : (Val.ofOption (nullable n)).columnInt = n := by
  unfold nullable
  split
  · rename_i h
    exact h.symm
  · exact (Val.columnInt_natCast _).trans (UInt32.ofNat_toNat)

/-- **What is stored is loaded.** For every record whose text is free of quotes and fits the query
    buffer: when the function that stores it reports `SQLITE_OK` and an id, and the id of the new
    row is below `2^32`, the text said the values of the record under the names of their columns,
    they are the one row of that id, and the function that loads it returns the record. -/
theorem store_then_load {r : Record} {id : UInt32} (hfree : r.QuoteFree) (hfits : r.Fits)
    (hrun : Runs Answers c r.store c' (id, .ok)) (hid : nextId (r.ids c.db) < 2 ^ 32) :
    readInsert (lex r.text) = some ⟨r.table, r.columns, r.values⟩ ∧
      (r.query id.toNat).rows c'.db = [.int id.toNat :: r.values] ∧
      Loads c' (r.load id) (r.stored id) := by
  obtain ⟨n, rfl, hn, hrows⟩ := Record.store_row hfree hrun
  have hback : id.toNat = nextId (r.ids c.db) := by
    rw [hn, UInt32.toNat_ofNat']
    exact Nat.mod_eq_of_lt hid
  rw [← hback] at hrows
  refine ⟨Record.readInsert_text hfree hfits, hrows, ?_⟩
  cases r with
  | user u p h e => exact loads_of_rows hrows rfl
  | conv a name =>
    refine loads_of_rows hrows ?_
    simp [Record.values, Record.stored, Val.columnText]
  | chat a b =>
    refine loads_of_rows hrows ?_
    simp [Record.values, Record.stored]
  | msg m now =>
    refine loads_of_rows hrows ?_
    simp [Record.values, Record.stored, Val.columnText, columnInt_toInt32, columnInt_nullable,
      columnInt_sent]

/-- A connection with one user. -/
def oneUserConn : Conn :=
  { db := { users := [⟨1, .ofBytes (ascii "ann"), .ofBytes (ascii "pw"), .ofBytes (ascii "1"),
      .ofBytes (ascii "a@b")⟩] } }

/-- A message that answers nothing and is in no room. -/
def plainMsg : MsgSchema :=
  { fromUid := 1, replyTo := 0, contentType := -1, contentLength := 4294967295,
    content := .ofBytes (ascii "hi"), convId := 0, chatId := 0 }

theorem store_then_load_message :
    ∃ c', Runs Answers oneUserConn (Record.msg plainMsg 7).store c' (1, .ok) ∧
      Loads c' ((Record.msg plainMsg 7).load 1) (.msg { plainMsg with id := 1, createdAt := 7 }) := by
  have hplay : (execute serve 16 oneUserConn (Record.msg plainMsg 7).store).any
      (fun x => decide (x.2 = (1, .ok))) = true := by decide +kernel
  obtain ⟨⟨c', x⟩, hexec, hx⟩ := (Option.any_eq_true _ _).mp hplay
  obtain rfl := of_decide_eq_true hx
  have hrun : Runs Answers oneUserConn (Record.msg plainMsg 7).store c' (1, .ok) :=
    runs_of_execute answers_of_serve hexec
  have hfree : (Record.msg plainMsg 7).QuoteFree := by
    rintro q ⟨⟩
    decide +kernel
  have hfits : (Record.msg plainMsg 7).Fits := by
    rintro q ⟨⟩
    decide +kernel
  exact ⟨c', hrun, (store_then_load hfree hfits hrun (by decide)).2.2⟩

end MeshChat
