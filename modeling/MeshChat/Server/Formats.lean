import MeshChat.Server.Sending
import MeshChat.Wire.RequestRoundTrip

/-! # The SQL texts that requests lead to

    A frame has room for 8128 bytes of text, a query buffer for 511 (8191 for a message), and
    the text of a client is pasted into the latter.

    * `Formats`: the SQL text with client data that the handler of a case has formatted;
      `Formats.reached` says that the handler hands this text to sqlite.
    * `RequestCall.Roomy`: the lengths with which the text of a request fits.
    * `query_fits_iff`: for every frame that a builder can produce, the text fits its buffer
      exactly when the request is roomy.
-/

namespace MeshChat

open CMemory SqlLex Prog

/-! ## What a handler formats -/

/-- The handler of the case formats this text. -/
inductive Formats (env : Env) (header : RequestHeader) : Route → TextQuery → Prop
  | register {u p h e hash : CStr} (hhash : hashStr env p = some hash) :
      Formats env header (.authRegister ⟨some u, some p, some h, some e⟩) (.userCreate u hash h e)
  | login {u p : CStr} {h e : Option CStr} :
      Formats env header (.authLogin ⟨some u, some p, h, e⟩) (.userGetByUname u)
  | search {id : UInt32} {s : CStr} :
      Formats env header (.userSearch ⟨id, some s⟩)
        (.userSearchByUname s (clampPage header.limit) (clampPage header.offset))
  | convCreate {c u : UInt32} {s : CStr} :
      Formats env header (.convCreate ⟨c, u, some s⟩) (.convCreate header.userId s)
  | msgSend {rm : RequestMsgBody} {msg : MsgSchema} {ops : List FileOp}
      (hmsg : Composed env header rm msg ops) :
      Formats env header (.msgSend rm) (msg.textQuery env.now)

/-- The call that hands the text to sqlite. -/
def TextQuery.call : TextQuery → SqlCall
  | userCreate u p h e => .prepare ((userCreate u p h e).insertStmt (.insertUser u p h e))
  | userGetByUname u => .prepareQuery (unameQuery u)
  | userSearchByUname u l o => .prepareQuery (searchQuery u l o)
  | convCreate a n => .exec [(convCreate a n).insertStmt (.insertConversation a.toNat n)]
  | msgSend f r t l s now chat conv =>
    .exec [msgSendStmt { fromUid := f, replyTo := r, contentType := t, contentLength := l,
                         content := s, chatId := chat, convId := conv } now]

/-- The handler hands the text to sqlite, if the checks before it pass and an upload arrives. -/
theorem Formats.reached {env : Env} {header : RequestHeader} {route : Route} {q : TextQuery}
    (h : Formats env header route q) (hupload : env.upload = .received) :
    ∃ rs, q.call ∈ ((route.handle env header).trace rs).map Prod.fst := by
  cases h with
  | register hhash =>
    refine ⟨[{}], ?_⟩
    simp [Route.handle, handleAuthRegister, deref, hhash, userCreate, sqlInsert, TextQuery.call]
  | login =>
    refine ⟨[{}, {}], ?_⟩
    simp [Route.handle, handleAuthLogin, deref, userGetByUname, sqlGetInfo, sqlFirstRow,
      TextQuery.call]
  | search =>
    refine ⟨[{}], ?_⟩
    simp [Route.handle, handleUserSearch, deref, respondList, userSearchByUname, sqlGetList,
      TextQuery.call]
  | convCreate =>
    -- the insert comes behind the `BEGIN` and the lock
    refine ⟨[{}, {}, {}], ?_⟩
    simp [Route.handle, handleConvCreate, deref, MeshChat.convCreate, TextQuery.call]
  | @msgSend rm msg ops hmsg =>
    -- the user is found in the conversation, then as above
    refine ⟨[{}, { rc := .row }, {}, {}, {}], ?_⟩
    cases hmsg with
    | text htype hs =>
      simp [Route.handle, handleMsgSend, deref, hs, htype, ifRoomMember, convIsMember, sqlExists,
        sqlFirstRow, sqlIsErr, sqlIsOk, sendMsg, MeshChat.msgSend, TextQuery.call,
        MsgSchema.textQuery]
    | file htype hs hpath =>
      simp [Route.handle, handleMsgSend, deref, hs, htype, hpath, hupload, msgFile, msgText,
        ifRoomMember, convIsMember, sqlExists, sqlFirstRow, sqlIsErr, sqlIsOk, sendMsg,
        MeshChat.msgSend, TextQuery.call, MsgSchema.textQuery]

/-! ## Lengths -/

/-- The number of bytes a number is printed with. -/
def width (n : Int) : Nat := (decimal n).length

/-- The same for an optional id. -/
def widthOrNull (n : UInt32) : Nat := (decimalOrNull n).length

theorem width_le {n k : Nat} (hk : 0 < k) (hn : n < 10 ^ k) : width n ≤ k := by
  have hdigits := (Nat.length_toDigits_le_iff (b := 10) (by omega) hk).mpr hn
  simp only [width, decimal, if_neg (Int.not_lt.mpr (Int.natCast_nonneg n)), List.length_map,
    Int.natAbs_natCast]
  exact hdigits

theorem width_uint32_le (n : UInt32) : width n.toNat ≤ 10 :=
  width_le (by omega) (by have := n.toNat_lt; omega)

theorem widthOrNull_le (n : UInt32) : widthOrNull n ≤ 10 := by
  unfold widthOrNull decimalOrNull
  split
  · decide
  · exact width_uint32_le n

/-- The length of a text: its strings, its numbers and what the format string has besides. -/
def TextQuery.textLength : TextQuery → Nat
  | userCreate u p h e => u.strlen + p.strlen + h.strlen + e.strlen + 73
  | userGetByUname u => u.strlen + 52
  | userSearchByUname u l o => u.strlen + width l.toInt + width o.toInt + 57
  | convCreate a n => n.strlen + width a.toNat + 54
  | msgSend f r t l s now chat conv =>
    s.strlen + width f.toNat + widthOrNull r + width t.toInt + width l.toNat + width now.toNat +
      widthOrNull chat + widthOrNull conv + 145

theorem length_ascii_comma : (ascii ", ").length = 2 := rfl

theorem length_ascii_end : (ascii ");").length = 2 := rfl

theorem TextQuery.length_text (q : TextQuery) : q.template.text.length = q.textLength := by
  cases q with
  | userCreate u p h e =>
    have hinsert : (ascii "INSERT INTO users(uname, password, phone, email) VALUES (").length = 57 :=
      rfl
    simp only [template, Template.text, textLength, CStr.strlen, List.foldr_cons, List.foldr_nil,
      List.length_append, List.length_cons, hinsert, length_ascii_comma, length_ascii_end]
    omega
  | userGetByUname u =>
    have hselect : (ascii "SELECT id, uname, password FROM users WHERE uname=").length = 50 := rfl
    simp only [template, Template.text, textLength, CStr.strlen, List.foldr_cons, List.foldr_nil,
      List.length_append, List.length_cons, List.length_nil, hselect]
    omega
  | userSearchByUname u l o =>
    have hselect : (ascii "SELECT id FROM users WHERE uname LIKE ").length = 38 := rfl
    have hpercent : (ascii "%").length = 1 := rfl
    have hlimit : (ascii " LIMIT ").length = 7 := rfl
    have hoffset : (ascii " OFFSET ").length = 8 := rfl
    simp only [template, Template.text, textLength, CStr.strlen, width, List.foldr_cons,
      List.foldr_nil, List.length_append, List.length_cons, hselect, hpercent, hlimit, hoffset]
    omega
  | convCreate a n =>
    have hinsert : (ascii "INSERT INTO conversations(admin_id,name) VALUES(").length = 48 := rfl
    simp only [template, Template.text, textLength, CStr.strlen, width, List.foldr_cons,
      List.foldr_nil, List.length_append, List.length_cons, hinsert, length_ascii_comma,
      length_ascii_end]
    omega
  | msgSend f r t l s now chat conv =>
    have hinsert : (ascii
        "INSERT INTO messages(from_uid, reply_to, content_type, content_length, ").length = 71 := rfl
    have hcolumns : (ascii
        "content, created_at, chat_id, conv_id, type) VALUES (").length = 53 := rfl
    have hsent : (decimal 0).length = 1 := rfl
    simp only [template, Template.text, textLength, CStr.strlen, width, widthOrNull,
      List.foldr_cons, List.foldr_nil, List.length_append, List.length_cons, hinsert, hcolumns,
      hsent, length_ascii_comma, length_ascii_end]
    omega

/-! ## Requests from the builders -/

namespace RequestCall

/-- The SQL text that the server formats for the frame of this call. -/
def Texts (env : Env) (c : RequestCall) (q : TextQuery) : Prop :=
  ∃ route, (Request.mk c.header c.body).route = some route ∧ Formats env c.header route q

/-- The client's text leaves room for the rest of the statement: the hash of the password has 32
    digits, and the numbers count as they are printed. -/
def Roomy (env : Env) : RequestCall → Prop
  | authRegister u _ h e => u.strlen + h.strlen + e.strlen < 407
  | authLogin u _ => u.strlen < 460
  | userSearch _ _ s l o =>
    s.strlen + width (clampPage l).toInt + width (clampPage o).toInt < 455
  | convCreate _ u s => s.strlen + width u.toNat < 458
  | msgSendText _ u c d r s =>
    s.strlen + width s.strlen + width u.toNat + widthOrNull r + width env.now.toNat +
      widthOrNull d + widthOrNull c < 8046
  | _ => True

end RequestCall

/-- The insert for a message of at most 1023 bytes fits. -/
theorem MsgSchema.fits_of_short {msg : MsgSchema} (hshort : msg.content.strlen < 1024)
    (htype : width msg.contentType.toInt = 1) (now : UInt32) : (msg.textQuery now).Fits := by
  have h₁ := width_uint32_le msg.fromUid
  have h₂ := width_uint32_le msg.contentLength
  have h₃ := width_uint32_le now
  have h₄ := widthOrNull_le msg.replyTo
  have h₅ := widthOrNull_le msg.chatId
  have h₆ := widthOrNull_le msg.convId
  rw [TextQuery.Fits, TextQuery.length_text]
  simp only [MsgSchema.textQuery, TextQuery.textLength, TextQuery.room, queryLarge, htype]
  omega

/-- So does the insert for a file. -/
theorem fileMsg_fits {env : Env} {header : RequestHeader} {fname path : CStr}
    (hfile : header.contentType = msgFile) (hpath : storagePath env fname = some path)
    (rm : RequestMsgBody) (now : UInt32) : ((fileMsg header rm path).textQuery now).Fits := by
  refine MsgSchema.fits_of_short (storagePath_lt hpath) ?_ now
  show width header.contentType.toUInt32.toInt32.toInt = 1
  rw [hfile]
  rfl

/-- **When a text fits its query buffer.** For every frame a builder can produce, the SQL text
    that is formatted for it is shorter than its buffer if and only if the text in the request
    leaves enough room. -/
theorem query_fits_iff {env : Env} {c : RequestCall} (hc : c.WellFormed) {q : TextQuery}
    (hq : c.Texts env q) : q.Fits ↔ c.Roomy env := by
  obtain ⟨route, hroute, hformats⟩ := hq
  rw [TextQuery.Fits, TextQuery.length_text]
  cases c with
  | authRegister u p h e =>
    cases hroute
    cases hformats with
    | register hhash =>
      simp only [TextQuery.textLength, TextQuery.room, querySmall, RequestCall.Roomy,
        hashStr_strlen hhash]
      omega
  | authLogin u p =>
    cases hroute
    cases hformats
    simp only [TextQuery.textLength, TextQuery.room, querySmall, RequestCall.Roomy]
    omega
  | userSearch t u s l o =>
    cases hroute
    cases hformats
    simp only [TextQuery.textLength, TextQuery.room, querySmall, RequestCall.Roomy,
      RequestCall.header, RequestCall.page]
    omega
  | convCreate t u s =>
    cases hroute
    cases hformats
    simp only [TextQuery.textLength, TextQuery.room, querySmall, RequestCall.Roomy,
      RequestCall.header, RequestCall.caller]
    omega
  | msgSendText t u c d r s =>
    cases hroute
    cases hformats with
    | msgSend hmsg =>
      cases hmsg with
      | text htype hs =>
        cases hs
        -- the twelve bytes of the ids are taken off again
        have hlen : (UInt32.ofNat (12 + s.strlen) - 12).toNat = s.strlen := by
          have hfits : 12 + s.strlen ≤ 8128 := hc.fits
          rw [UInt32.toNat_sub_of_le]
          · rw [UInt32.toNat_ofNat_of_lt' (by rw [UInt32.size]; omega)]
            simp
          · rw [UInt32.le_iff_toNat_le, UInt32.toNat_ofNat_of_lt' (by rw [UInt32.size]; omega)]
            simp
        have htext : width (0 : Int) = 1 := rfl
        have htype' : (UInt8.toUInt32 0).toInt32.toInt = 0 := rfl
        simp only [MsgSchema.textQuery, TextQuery.textLength, TextQuery.room, queryLarge,
          RequestCall.Roomy, RequestCall.header, RequestCall.caller, RequestCall.lengths, hlen,
          htype', htext]
        omega
      | file htype _ _ => cases htype
  | msgSendFile t u c d r z s =>
    cases hroute
    cases hformats with
    | msgSend hmsg =>
      cases hmsg with
      | text htype _ => cases htype
      | file htype hs hpath =>
        cases hs
        have hfits := fileMsg_fits htype hpath
          { convId := c, chatId := d, replyId := r, msgContent := some s } env.now
        rw [TextQuery.Fits, TextQuery.length_text] at hfits
        exact iff_of_true hfits trivial
  | _ =>
    cases hroute
    cases hformats

/-- A short group name. -/
theorem query_fits_convCreate :
    (TextQuery.convCreate 1 (.ofBytes (ascii "friends"))).Fits := by
  have hformats : (RequestCall.convCreate emptyToken 1 (.ofBytes (ascii "friends"))).Texts lobbyEnv
      (.convCreate 1 (.ofBytes (ascii "friends"))) := ⟨_, rfl, .convCreate⟩
  have hroomy : (CStr.ofBytes (ascii "friends")).strlen + width (1 : UInt32).toNat < 458 := by decide
  exact (query_fits_iff ⟨by decide, by simp [RequestCall.delimited]⟩ hformats).mpr hroomy

/-- A group name of 500 letters, which fills less than a tenth of the body. -/
def longName : CStr := .ofBytes (List.replicate 500 97)

/-- Its text does not fit. -/
theorem long_name_truncated :
    (RequestCall.convCreate emptyToken 1 longName).WellFormed ∧
      (TextQuery.convCreate 1 longName).QuoteFree ∧
      (RequestCall.convCreate emptyToken 1 longName).Texts lobbyEnv (.convCreate 1 longName) ∧
      ¬ (TextQuery.convCreate 1 longName).Fits := by
  refine ⟨⟨by decide +kernel, by simp [RequestCall.delimited]⟩, by decide +kernel,
    ⟨_, rfl, .convCreate⟩, by decide +kernel⟩

end MeshChat
