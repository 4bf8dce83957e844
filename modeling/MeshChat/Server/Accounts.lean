import Mathlib.Data.Set.Function
import MeshChat.Server.Session

/-! # Registration and login

    * `Directory`: what a sequence of register and login requests should be about,
      a name's password and the id its registration returned.
    * `Directory.Right`: the answer to the next request.
    * `Directory.Holds`: the table of users stands for a directory. The table has
      the digests of the passwords.
    * `register_login_agree`: every sequence of such requests is answered as the
      directory says.
-/

namespace MeshChat

open CMemory SqlLex Prog

/-! ## Digests of passwords -/

theorem hashStr_eq {env : Env} {md5 : CStr → Vector UInt8 16} (h : ∀ s, env.md5 s = some (md5 s))
    (str : CStr) : hashStr env str = some (.ofBytes (hexText (md5 str))) := by
  rw [hashStr, h]
  rfl

/-! ## Requests -/

/-- A register or a login request, with the strings its handler reads. -/
inductive AuthReq where
  | register (uname password phone email : CStr)
  | login (uname password : CStr)
  deriving DecidableEq

def AuthReq.password : AuthReq → CStr
  | register _ p _ _ => p
  | login _ p => p

/-- The requests of the two kinds, as the parser delivers them. -/
def Request.auth? (r : Request) : Option AuthReq :=
  match r.route with
  | some (.authRegister ⟨some u, some p, some h, some e⟩) => some (.register u p h e)
  | some (.authLogin ⟨some u, some p, _, _⟩) => some (.login u p)
  | _ => none

/-- One of them, and the environment it is handled in. -/
structure AuthCall where
  env : Env
  req : Request
  auth : AuthReq
  is : req.auth? = some auth

/-- The SQL text fits its buffer. -/
def AuthCall.Fits (a : AuthCall) : Prop :=
  match a.auth with
  | .register u p h e => ∀ hash ∈ hashStr a.env p, (TextQuery.userCreate u hash h e).Fits
  | .login u _ => (TextQuery.userGetByUname u).Fits

/-- The calls one after the other, without a failing call to sqlite, and what each of
    them has sent. -/
inductive Plays : Conn → List AuthCall → List Handled → Conn → Prop
  | nil (c : Conn) : Plays c [] [] c
  | cons {c c₁ c' : Conn} {a : AuthCall} {calls : List AuthCall} {out : Handled}
      {outs : List Handled} (hrun : Runs Serves c (handleReq a.env (some a.req)) c₁ out)
      (hrest : Plays c₁ calls outs c') : Plays c (a :: calls) (out :: outs) c'

theorem Plays.unique {c c₁ c₂ : Conn} {calls : List AuthCall} {outs₁ outs₂ : List Handled}
    (h₁ : Plays c calls outs₁ c₁) (h₂ : Plays c calls outs₂ c₂) : outs₁ = outs₂ ∧ c₁ = c₂ := by
  induction h₁ generalizing outs₂ c₂ with
  | nil c =>
    cases h₂
    exact ⟨rfl, rfl⟩
  | cons hrun _ ih =>
    cases h₂ with
    | cons hrun' hrest' =>
      obtain ⟨rfl, rfl⟩ := Runs.unique Serves.unique hrun hrun'
      obtain ⟨rfl, rfl⟩ := ih hrest'
      exact ⟨rfl, rfl⟩

/-! ## The directory -/

/-- The names that are registered, each with the password and the id of its
    registration. -/
abbrev Directory := CStr → Option (CStr × UInt32)

namespace Directory

/-- The answer that is due. -/
def Right (d : Directory) (env : Env) (a : AuthReq) (out : Handled) : Prop :=
  match a with
  | .register u _ _ _ =>
    match d u with
    | none => ∃ id, out = { sent := [.authRegister 201 (env.makeToken id) id] }
    | some _ => out = { sent := [.err 409 0 0] }
  | .login u p =>
    match d u with
    | none => out = { sent := [.err 404 0 1] }
    | some (p', id) =>
      if p = p' then out = { sent := [.authLogin 200 (env.makeToken id) id] }
      else out = { sent := [.err 403 0 1] }

/-- A registration that was answered with 201 is entered. -/
def after (d : Directory) (a : AuthReq) (out : Handled) : Directory :=
  match a, out.sent with
  | .register u p _ _, [.authRegister 201 _ id] => Function.update d u (some (p, id))
  | _, _ => d

/-- All answers are those due. -/
def Agrees (d : Directory) : List AuthCall → List Handled → Prop
  | [], [] => True
  | a :: calls, out :: outs =>
    d.Right a.env a.auth out ∧ Agrees (d.after a.auth out) calls outs
  | _, _ => False

/-- The table has an entry for each name of the directory, and no other ones. -/
structure Holds (md5 : CStr → Vector UInt8 16) (d : Directory) (c : Conn) : Prop where
  free : c.held = false
  nodup : (c.db.users.map (·.uname)).Nodup
  absent : ∀ u, d u = none → ∀ r ∈ c.db.users, r.uname ≠ u
  present : ∀ u p id, d u = some (p, id) → ∃ r ∈ c.db.users, r.uname = u ∧
    r.password = .ofBytes (hexText (md5 p)) ∧ UInt32.ofNat r.id = id

end Directory

/-! ## The two handlers -/

theorem Request.group_of_auth {r : Request} {ra : RequestAuth}
    (h : r.route = some (.authRegister ra) ∨ r.route = some (.authLogin ra)) :
    r.header.group = 0 := by
  unfold Request.route at h
  split at h
  case h_1 hgroup _ _ => exact Int8.toInt_inj.mp hgroup
  case h_2 hgroup _ _ => exact Int8.toInt_inj.mp hgroup
  all_goals rcases h with h | h <;> cases h

/-- The two kinds of requests need no token. -/
theorem handleReq_auth (env : Env) {r : Request} {a : AuthReq} (h : r.auth? = some a)
    (hquote : r.QuoteFree) :
    (∃ u p ph e, a = .register u p ph e ∧
      quote ∉ u.bytes ∧ quote ∉ ph.bytes ∧ quote ∉ e.bytes ∧
      handleReq env (some r) = handleAuthRegister env ⟨some u, some p, some ph, some e⟩) ∨
    ∃ u p ra, a = .login u p ∧ quote ∉ u.bytes ∧ ra.uname = some u ∧ ra.password = some p ∧
      handleReq env (some r) = handleAuthLogin env ra := by
  have hfree : ∀ {route : Route}, r.route = some route → ∀ s ∈ route.strings, quote ∉ s.bytes :=
    fun hroute s hs => hquote s (Request.mem_strings_of_route hroute hs)
  unfold Request.auth? at h
  split at h
  · rename_i u p ph e hroute
    cases h
    have hstrings := hfree hroute
    refine Or.inl ⟨u, p, ph, e, rfl, hstrings u (by simp [Route.strings, RequestBody.strings]),
      hstrings ph (by simp [Route.strings, RequestBody.strings]),
      hstrings e (by simp [Route.strings, RequestBody.strings]), ?_⟩
    -- group 0 is let through without a look at the token
    rw [handleReq, if_neg (by simp [Request.group_of_auth (Or.inl hroute)]), hroute]
    rfl
  · rename_i u p ph e hroute
    cases h
    refine Or.inr ⟨u, p, ⟨some u, some p, ph, e⟩, rfl,
      hfree hroute u (by simp [Route.strings, RequestBody.strings]), rfl, rfl, ?_⟩
    rw [handleReq, if_neg (by simp [Request.group_of_auth (Or.inr hroute)]), hroute]
    rfl
  · cases h

section Register

variable {c : Conn} {env : Env} {u p ph e hash : CStr}

theorem userCreate_stmt (hfree : (TextQuery.userCreate u hash ph e).QuoteFree)
    (hfits : (TextQuery.userCreate u hash ph e).Fits) :
    (TextQuery.userCreate u hash ph e).insertStmt (.insertUser u hash ph e) =
      .insertUser u hash ph e := by
  rw [TextQuery.insertStmt, if_neg (not_not.mpr hfree), if_pos (Nat.le_of_lt hfits)]

theorem served_register (hheld : c.held = false)
    (hfree : (TextQuery.userCreate u hash ph e).QuoteFree)
    (hfits : (TextQuery.userCreate u hash ph e).Fits) (hhash : hashStr env p = some hash)
    (hnew : ∀ r ∈ c.db.users, r.uname ≠ u) :
    ∃ n, Runs Serves c (handleAuthRegister env ⟨some u, some p, some ph, some e⟩)
      { c with db := { c.db with users := c.db.users ++ [⟨n, u, hash, ph, e⟩] },
               lastRowid := n, held := false }
      { sent := [.authRegister 201 (env.makeToken (UInt32.ofNat n)) (UInt32.ofNat n)] } := by
  have happly : (Stmt.insertUser u hash ph e).apply c.fk c.lastRowid c.db =
      some ({ c.db with users := c.db.users ++
        [⟨nextId (c.db.users.map (·.id)), u, hash, ph, e⟩] },
        some (nextId (c.db.users.map (·.id)))) := by
    simp only [Stmt.apply, Db.insertUser, Db.insertRow]
    rw [if_pos (by simpa using hnew)]
  refine ⟨nextId (c.db.users.map (·.id)), ?_⟩
  simp only [handleAuthRegister, deref, hhash, userCreate, userCreate_stmt hfree hfits, runs_bind]
  exact ⟨_, _, served_sqlInsert rfl hheld happly, .ret _ _⟩

theorem refused_register (hheld : c.held = false)
    (hfree : (TextQuery.userCreate u hash ph e).QuoteFree)
    (hfits : (TextQuery.userCreate u hash ph e).Fits) (hhash : hashStr env p = some hash)
    (htaken : ∃ r ∈ c.db.users, r.uname = u) :
    Runs Serves c (handleAuthRegister env ⟨some u, some p, some ph, some e⟩)
      { c with held := false } { sent := [.err 409 0 0] } := by
  have happly : (Stmt.insertUser u hash ph e).apply c.fk c.lastRowid c.db = none := by
    simp only [Stmt.apply, Db.insertUser, Db.insertRow]
    rw [if_neg (by simpa using htaken)]
  simp only [handleAuthRegister, deref, hhash, userCreate, userCreate_stmt hfree hfits, runs_bind]
  exact ⟨_, _, refused_sqlInsert rfl hheld happly, .ret _ _⟩

end Register

section Login

variable {c : Conn} {env : Env} {u p hash : CStr} {ra : RequestAuth} (huname : ra.uname = some u)
  (hpassword : ra.password = some p) (hquote : quote ∉ u.bytes)
  (hfits : (TextQuery.userGetByUname u).Fits) (hhash : hashStr env p = some hash)

include hquote hfits in
theorem unameQuery_eq : unameQuery u = .userByUname u := by
  have hfree : (TextQuery.userGetByUname u).QuoteFree := by
    simpa [TextQuery.QuoteFree, TextQuery.strings] using hquote
  unfold unameQuery
  dsimp only
  rw [if_neg (not_not.mpr hfree), if_pos hfits]

include huname hpassword hquote hfits

theorem served_login_unknown (habsent : ∀ r ∈ c.db.users, r.uname ≠ u) :
    Runs Serves c (handleAuthLogin env ra) c { sent := [.err 404 0 1] } := by
  have hnone : ((Query.userByUname u).rows c.db)[0]? = none := by
    rw [Query.rows, List.filter_eq_nil_iff.mpr fun r hr => by simpa using habsent r hr]
    rfl
  have hsound : (Query.userByUname u).Sound := ⟨by simp, rfl, rfl⟩
  simp only [handleAuthLogin, deref, huname, hpassword, userGetByUname,
    unameQuery_eq hquote hfits, runs_bind]
  refine ⟨_, _, served_sqlGetInfo hsound _, ?_⟩
  rw [Query.first, hnone]
  exact .ret _ _

include hhash

theorem served_login {r : UserRow} (hnodup : (c.db.users.map (·.uname)).Nodup)
    (hr : r ∈ c.db.users) (hru : r.uname = u) :
    Runs Serves c (handleAuthLogin env ra) c
      { sent := [if hash = r.password then
          .authLogin 200 (env.makeToken (UInt32.ofNat r.id)) (UInt32.ofNat r.id)
        else .err 403 0 1] } := by
  have hrow : ((Query.userByUname u).rows c.db)[0]? =
      some [.int r.id, .text r.uname, .text r.password] := by
    -- names are unique, so the first row found is the one of the user
    rw [Query.rows, List.getElem?_map, first_of_id hnodup hr hru]
    rfl
  have hsound : (Query.userByUname u).Sound := ⟨by simp, rfl, rfl⟩
  simp only [handleAuthLogin, deref, huname, hpassword, userGetByUname,
    unameQuery_eq hquote hfits, runs_bind]
  refine ⟨_, _, served_sqlGetInfo hsound _, ?_⟩
  rw [Query.first, hrow]
  have hok : sqlIsErr .ok = false := rfl
  have htext : ([.int r.id, .text r.uname, .text r.password].getD 2 Val.null).columnText =
      r.password := rfl
  simp only [hok, hhash, Bool.false_eq_true, if_false, reduceCtorEq, List.getD_cons_zero,
    Val.columnInt_natCast, htext]
  by_cases hsame : hash = r.password
  · rw [if_neg (not_not.mpr hsame), if_pos hsame]
    exact .ret _ _
  · rw [if_pos hsame, if_neg hsame]
    exact .ret _ _

end Login

/-! ## All calls -/

namespace Directory

variable {md5 : CStr → Vector UInt8 16} {d : Directory} {c : Conn}

theorem Holds.empty : Holds md5 (fun _ => none) { db := {} } where
  free := rfl
  nodup := List.nodup_nil
  absent := by simp
  present := by simp

/-- A new name in directory and table. -/
theorem Holds.register (h : d.Holds md5 c) {u p ph e : CStr} {n : Nat} (hnew : d u = none) :
    Holds md5 (Function.update d u (some (p, UInt32.ofNat n)))
      { c with db := { c.db with users := c.db.users ++
                         [⟨n, u, .ofBytes (hexText (md5 p)), ph, e⟩] },
               lastRowid := n, held := false } where
  free := rfl
  nodup := by
    rw [List.map_append, List.nodup_append]
    refine ⟨h.nodup, List.nodup_singleton _, ?_⟩
    intro x hx y hy hxy
    obtain ⟨r, hr, rfl⟩ := List.mem_map.mp hx
    obtain rfl : y = u := by simpa using hy
    -- a name without an entry has no row
    exact h.absent y hnew r hr hxy
  absent := by
    intro v hv r hr
    by_cases hvu : v = u
    · rw [hvu, Function.update_self] at hv
      cases hv
    · rw [Function.update_of_ne hvu] at hv
      rcases List.mem_append.mp hr with hr | hr
      · exact h.absent v hv r hr
      · obtain rfl := List.mem_singleton.mp hr
        exact fun huv => hvu huv.symm
  present := by
    intro v q id hv
    by_cases hvu : v = u
    · subst hvu
      rw [Function.update_self] at hv
      cases hv
      exact ⟨_, List.mem_append_right _ (List.mem_singleton_self _), rfl, rfl, rfl⟩
    · rw [Function.update_of_ne hvu] at hv
      obtain ⟨r, hr, hrest⟩ := h.present v q id hv
      exact ⟨r, List.mem_append_left _ hr, hrest⟩

/-- The passwords of the directory are among those in use. -/
def Uses (d : Directory) (used : Set CStr) : Prop := ∀ u p id, d u = some (p, id) → p ∈ used

theorem uses_empty (used : Set CStr) : Uses (fun _ => none) used := by
  simp [Uses]

/-- A registration is answered with a new id, or with 409. -/
theorem Holds.callRegister (h : d.Holds md5 c) {env : Env} {u p ph e : CStr}
    (hhash : hashStr env p = some (.ofBytes (hexText (md5 p))))
    (hfree : (TextQuery.userCreate u (.ofBytes (hexText (md5 p))) ph e).QuoteFree)
    (hfits : (TextQuery.userCreate u (.ofBytes (hexText (md5 p))) ph e).Fits) {used : Set CStr}
    (hpassword : p ∈ used) (huses : d.Uses used) :
    ∃ c' out, Runs Serves c (handleAuthRegister env ⟨some u, some p, some ph, some e⟩) c' out ∧
      d.Right env (.register u p ph e) out ∧
      (d.after (.register u p ph e) out).Holds md5 c' ∧
      (d.after (.register u p ph e) out).Uses used := by
  cases hd : d u with
  | none =>
    obtain ⟨n, hrun⟩ := served_register h.free hfree hfits hhash (h.absent u hd)
    refine ⟨_, _, hrun, ?_, h.register hd, ?_⟩
    · rw [Right]
      simp only [hd]
      exact ⟨_, rfl⟩
    · intro v q id hv
      by_cases hvu : v = u
      · subst hvu
        obtain ⟨rfl, -⟩ : p = q ∧ UInt32.ofNat n = id := by simpa [after] using hv
        exact hpassword
      · exact huses v q id (by simpa [after, Function.update_of_ne hvu] using hv)
  | some entry =>
    obtain ⟨p', id⟩ := entry
    -- the name has a row, and the insert violates its UNIQUE
    obtain ⟨r, hr, hru, -⟩ := h.present u p' id hd
    have hrun := refused_register h.free hfree hfits hhash ⟨r, hr, hru⟩
    refine ⟨_, _, hrun, ?_, ⟨rfl, h.nodup, h.absent, h.present⟩, huses⟩
    rw [Right]
    simp only [hd]

/-- A login is answered by the entry of the name. -/
theorem Holds.callLogin (h : d.Holds md5 c) {env : Env} {u p : CStr} {ra : RequestAuth}
    (huname : ra.uname = some u) (hra : ra.password = some p) (hquote : quote ∉ u.bytes)
    (hfits : (TextQuery.userGetByUname u).Fits)
    (hhash : hashStr env p = some (.ofBytes (hexText (md5 p)))) {used : Set CStr}
    (hinj : Set.InjOn md5 used) (hpassword : p ∈ used) (huses : d.Uses used) :
    ∃ out, Runs Serves c (handleAuthLogin env ra) c out ∧ d.Right env (.login u p) out := by
  cases hd : d u with
  | none =>
    refine ⟨_, served_login_unknown huname hra hquote hfits (h.absent u hd), ?_⟩
    rw [Right]
    simp only [hd]
  | some entry =>
    obtain ⟨p', id⟩ := entry
    obtain ⟨r, hr, hru, hrp, rfl⟩ := h.present u p' id hd
    have hrun := served_login huname hra hquote hfits hhash h.nodup hr hru
    refine ⟨_, hrun, ?_⟩
    rw [Right]
    simp only [hd]
    by_cases hsame : p = p'
    · rw [if_pos hsame, if_pos (by rw [hrp, hsame])]
    · -- equal texts would be equal digests of two passwords in use
      have hne : CStr.ofBytes (hexText (md5 p)) ≠ r.password := by
        intro heq
        rw [hrp] at heq
        exact hsame (hinj hpassword (huses u p' _ hd) (hexText_inj heq))
      rw [if_neg hsame, if_neg hne]

/-- Every call is answered as it should, and the table keeps standing for the
    directory. `used` are the passwords on which MD5 has no collision. -/
theorem Holds.call (h : d.Holds md5 c) {a : AuthCall} (hmd5 : ∀ s, a.env.md5 s = some (md5 s))
    {used : Set CStr} (hinj : Set.InjOn md5 used) (hpassword : a.auth.password ∈ used)
    (huses : d.Uses used) (hquote : a.req.QuoteFree) (hfits : a.Fits) :
    ∃ c' out, Runs Serves c (handleReq a.env (some a.req)) c' out ∧
      d.Right a.env a.auth out ∧ (d.after a.auth out).Holds md5 c' ∧
      (d.after a.auth out).Uses used := by
  obtain ⟨env, req, auth, his⟩ := a
  rcases handleReq_auth env his hquote with
    ⟨u, p, ph, e, rfl, hu, hph, he, hhandle⟩ | ⟨u, p, ra, rfl, hu, huname, hra, hhandle⟩
  -- what is stored is hexadecimal, so it brings no quotes into the text
  · have hhash := hashStr_eq hmd5 p
    have hfree : (TextQuery.userCreate u (.ofBytes (hexText (md5 p))) ph e).QuoteFree := by
      intro s hs
      simp only [TextQuery.strings, List.mem_cons, List.not_mem_nil, or_false] at hs
      rcases hs with rfl | rfl | rfl | rfl
      · exact hu
      · exact quoteFree_hashStr hhash
      · exact hph
      · exact he
    rw [hhandle]
    exact h.callRegister hhash hfree (hfits _ hhash) hpassword huses
  · obtain ⟨out, hrun, hright⟩ :=
      h.callLogin huname hra hu hfits (hashStr_eq hmd5 p) hinj hpassword huses
    rw [hhandle]
    exact ⟨c, out, hrun, hright, h, huses⟩

/-- All calls of a sequence are answered as they should. -/
theorem Holds.calls (h : d.Holds md5 c) {calls : List AuthCall} {used : Set CStr}
    (hmd5 : ∀ a ∈ calls, ∀ s, a.env.md5 s = some (md5 s)) (hinj : Set.InjOn md5 used)
    (hpassword : ∀ a ∈ calls, a.auth.password ∈ used) (huses : d.Uses used)
    (hquote : ∀ a ∈ calls, a.req.QuoteFree) (hfits : ∀ a ∈ calls, a.Fits) :
    ∃ outs c', Plays c calls outs c' ∧ d.Agrees calls outs ∧
      (c'.db.users.map (·.uname)).Nodup := by
  induction calls generalizing d c with
  | nil => exact ⟨[], c, .nil c, trivial, h.nodup⟩
  | cons a calls ih =>
    simp only [List.forall_mem_cons] at hmd5 hpassword hquote hfits
    -- the directory after the call is the one the rest is measured by
    obtain ⟨c₁, out, hrun, hright, hnext, huses'⟩ :=
      h.call hmd5.1 hinj hpassword.1 huses hquote.1 hfits.1
    obtain ⟨outs, c', hplays, hagrees, hnodup⟩ :=
      ih hnext hmd5.2 hpassword.2 huses' hquote.2 hfits.2
    exact ⟨out :: outs, c', .cons hrun hplays, ⟨hright, hagrees⟩, hnodup⟩

end Directory

/-- Every sequence of register and login requests is answered as the directory of
    the registrations before says, and no name is registered twice. -/
theorem register_login_agree {md5 : CStr → Vector UInt8 16} (calls : List AuthCall)
    (hmd5 : ∀ a ∈ calls, ∀ s, a.env.md5 s = some (md5 s))
    (hinj : Set.InjOn md5 { p | ∃ a ∈ calls, a.auth.password = p })
    (hquote : ∀ a ∈ calls, a.req.QuoteFree) (hfits : ∀ a ∈ calls, a.Fits) :
    ∃ outs c, (∀ outs' c', Plays { db := {} } calls outs' c' ↔ outs' = outs ∧ c' = c) ∧
      Directory.Agrees (fun _ => none) calls outs ∧
      ∀ r ∈ c.db.users, ∀ r' ∈ c.db.users, r.uname = r'.uname → r = r' := by
  obtain ⟨outs, c, hplays, hagrees, hnodup⟩ :=
    Directory.Holds.empty.calls hmd5 hinj (fun a ha => ⟨a, ha, rfl⟩)
      (Directory.uses_empty _) hquote hfits
  -- sqlite has one answer to every call, so this run is the only one
  refine ⟨outs, c, fun outs' c' => ⟨fun h => h.unique hplays, ?_⟩, hagrees, ?_⟩
  · rintro ⟨rfl, rfl⟩
    exact hplays
  · intro r hr r' hr' hname
    exact List.inj_on_of_nodup_map hnodup hr hr' hname

/-- The digest of `guess`, and for all else that of `secret`. -/
def gateMd5 (s : CStr) : Vector UInt8 16 :=
  if s = .ofBytes (ascii "guess") then
    #v[0x41, 0x42, 0x04, 0x74, 0x31, 0xf5, 0xf9, 0x74, 0xef, 0x18, 0x2c, 0x6f, 0x3a, 0x49, 0x82,
      0xf6]
  else (lobbyEnv.md5 s).getD (.replicate 16 0)

def gateEnv : Env := { lobbyEnv with md5 := fun s => some (gateMd5 s) }

def gateRegister : AuthCall where
  env := gateEnv
  req := registerAs "an"
  auth := .register (.ofBytes (ascii "an")) (.ofBytes (ascii "secret")) (.ofBytes (ascii "123"))
    (.ofBytes (ascii "a@b"))
  is := rfl

def gateLogin (password : String) : AuthCall where
  env := gateEnv
  req := requestBy 0 0 1 (.auth { uname := some (.ofBytes (ascii "an")),
                                  password := some (.ofBytes (ascii password)) })
  auth := .login (.ofBytes (ascii "an")) (.ofBytes (ascii password))
  is := rfl

/-- A login before the registration, two registrations of one name, and logins with
    the right and with a wrong password. -/
def gateCalls : List AuthCall :=
  [gateLogin "secret", gateRegister, gateRegister, gateLogin "secret", gateLogin "guess"]

theorem gateCalls_env {a : AuthCall} (h : a ∈ gateCalls) : a.env = gateEnv := by
  simp only [gateCalls, List.mem_cons, List.not_mem_nil, or_false] at h
  rcases h with rfl | rfl | rfl | rfl | rfl <;> rfl

theorem gateCalls_password {a : AuthCall} (h : a ∈ gateCalls) :
    a.auth.password = .ofBytes (ascii "secret") ∨ a.auth.password = .ofBytes (ascii "guess") := by
  simp only [gateCalls, List.mem_cons, List.not_mem_nil, or_false] at h
  rcases h with rfl | rfl | rfl | rfl | rfl
  · exact Or.inl rfl
  · exact Or.inl rfl
  · exact Or.inl rfl
  · exact Or.inl rfl
  · exact Or.inr rfl

theorem gateMd5_injOn : Set.InjOn gateMd5 { p | ∃ a ∈ gateCalls, a.auth.password = p } := by
  have hne : gateMd5 (.ofBytes (ascii "secret")) ≠ gateMd5 (.ofBytes (ascii "guess")) := by
    decide
  rintro p ⟨a, ha, rfl⟩ q ⟨b, hb, rfl⟩ heq
  rcases gateCalls_password ha with hp | hp <;> rcases gateCalls_password hb with hq | hq
  · rw [hp, hq]
  · rw [hp, hq] at heq
    exact absurd heq hne
  · rw [hp, hq] at heq
    exact absurd heq.symm hne
  · rw [hp, hq]

theorem gateCalls_fits {a : AuthCall} (h : a ∈ gateCalls) : a.req.QuoteFree ∧ a.Fits := by
  have hregister : ∀ hash ∈ hashStr gateEnv (.ofBytes (ascii "secret")),
      (TextQuery.userCreate (.ofBytes (ascii "an")) hash (.ofBytes (ascii "123"))
        (.ofBytes (ascii "a@b"))).Fits := by
    decide +kernel
  have hlogin : (TextQuery.userGetByUname (.ofBytes (ascii "an"))).Fits := by decide
  simp only [gateCalls, List.mem_cons, List.not_mem_nil, or_false] at h
  rcases h with rfl | rfl | rfl | rfl | rfl
  · exact ⟨by decide, hlogin⟩
  · exact ⟨by decide, hregister⟩
  · exact ⟨by decide, hregister⟩
  · exact ⟨by decide, hlogin⟩
  · exact ⟨by decide, hlogin⟩

theorem register_login_agree_gate :
    (∀ a ∈ gateCalls, ∀ s, a.env.md5 s = some (gateMd5 s)) ∧ gateCalls.length = 5 ∧
    ∃ outs c, (∀ outs' c', Plays { db := {} } gateCalls outs' c' ↔ outs' = outs ∧ c' = c) ∧
      Directory.Agrees (fun _ => none) gateCalls outs ∧
      ∀ r ∈ c.db.users, ∀ r' ∈ c.db.users, r.uname = r'.uname → r = r' := by
  have hmd5 : ∀ a ∈ gateCalls, ∀ s, a.env.md5 s = some (gateMd5 s) := by
    intro a ha s
    rw [gateCalls_env ha]
    rfl
  exact ⟨hmd5, rfl, register_login_agree gateCalls hmd5 gateMd5_injOn
    (fun a ha => (gateCalls_fits ha).1) fun a ha => (gateCalls_fits ha).2⟩

end MeshChat
