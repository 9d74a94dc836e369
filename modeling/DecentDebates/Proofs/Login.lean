import Mathlib.Data.List.Perm.Basic
import DecentDebates.Login
import DecentDebates.Proofs.Effects

set_option autoImplicit false

/-! # Login against registration

The rows of the table are the accounts that were registered (`Registered`). The lookup finds an
account by either name if no other account has that name in the other column, and if the name it was
registered with is the one that was stored. -/

namespace DecentDebates

open Relational

/-! ## What a column keeps of a text -/

/-- A stored text is the text itself, or the beginning of a longer one that ends with spaces. -/
theorem varchar_eq_ok {n : Nat} {s s' : String} (h : varchar n s = .ok s') :
    IsText s ∧ ((s' = s ∧ s.length ≤ n) ∨
      (n < s.length ∧ s'.length = n ∧ s.toList.getLast? = some ' ')) := by
  unfold varchar at h
  by_cases htext : IsText s
  · refine ⟨htext, ?_⟩
    rw [if_neg (not_not_intro htext)] at h
    by_cases hlen : s.length ≤ n
    · rw [if_pos hlen] at h
      exact Or.inl ⟨(Except.ok.inj h).symm, hlen⟩
    · rw [if_neg hlen] at h
      by_cases hspaces : (s.toList.drop n).all (· = ' ') = true
      · rw [if_pos hspaces] at h
        have hs' := (Except.ok.inj h).symm
        have hlt : n < s.toList.length := by
          rw [String.length_toList]
          omega
        refine Or.inr ⟨by omega, ?_, ?_⟩
        · rw [hs', ← String.length_toList, String.toList_ofList, List.length_take]
          omega
        · -- the last character is among those that are cut off
          have hne : s.toList.drop n ≠ [] := by
            rw [ne_eq, List.drop_eq_nil_iff]
            omega
          have hlast := List.all_eq_true.1 hspaces _ (List.getLast_mem hne)
          rw [← List.take_append_drop n s.toList, List.getLast?_append_of_ne_nil _ hne,
            List.getLast?_eq_getLast_of_ne_nil hne]
          simpa using hlast
      · rw [if_neg hspaces] at h
        cases h
  · rw [if_pos htext] at h
    cases h

theorem varchar_eq_self {n : Nat} {s s' : String} (h : varchar n s = .ok s')
    (hlast : s.toList.getLast? ≠ some ' ') : s' = s := by
  rcases (varchar_eq_ok h).2 with ⟨he, -⟩ | ⟨-, -, hspace⟩
  · exact he
  · exact absurd hspace hlast

/-! ## The table after registrations -/

/-- The row of an account that was registered with `d`. -/
structure StoresAccount (bcrypt : Bcrypt) (d : RegisterUserDTO) (user : UserRow) : Prop where
  username : varchar 80 d.username = .ok user.username
  email : varchar 255 d.email = .ok user.email
  password : ∃ salt, varchar 65 (bcrypt.hash salt d.password) = .ok user.password

/-- The users are those who have registered, and nobody shares a username or an e-mail. -/
structure Registered (bcrypt : Bcrypt) (accounts : List (RegisterUserDTO × UserRow))
    (db : Database) : Prop where
  rows : db.users.rows = accounts.map Prod.snd
  stores : ∀ p ∈ accounts, StoresAccount bcrypt p.1 p.2
  username : ∀ u ∈ db.users.rows, ∀ v ∈ db.users.rows, u.username = v.username → u = v
  email : ∀ u ∈ db.users.rows, ∀ v ∈ db.users.rows, u.email = v.email → u = v

theorem insertUser_eq_ok {now : Timestamp} {d : RegisterUserDTO} {role : Option UserRole}
    {db db' : Database} {row : UserRow} (h : insertUser now d role db = .ok (row, db')) :
    db'.users.rows = db.users.rows ++ [row] ∧ varchar 80 d.username = .ok row.username ∧
      varchar 255 d.email = .ok row.email ∧ varchar 65 d.password = .ok row.password ∧
      ∀ u ∈ db.users.rows, u.username ≠ row.username ∧ u.email ≠ row.email := by
  simp only [insertUser, Sql.bind_eq_ok, Sql.get_eq_ok, Sql.lift_eq_ok, Sql.check_eq_ok,
    Sql.set_eq_ok, Sql.pure_eq_ok] at h
  obtain ⟨_, _, ⟨rfl, rfl⟩, username, _, ⟨husername, rfl⟩, password, _, ⟨hpassword, rfl⟩, email, _,
    ⟨hemail, rfl⟩, _, _, ⟨-, rfl⟩, _, _, ⟨hunique, rfl⟩, _, _, rfl, rfl, rfl⟩ := h
  refine ⟨rfl, husername, hemail, hpassword, fun u hu => ?_⟩
  simpa using List.all_eq_true.1 hunique u hu

/-- A registration inserts one account, or leaves the table as it is. -/
theorem register_cases (bcrypt : Bcrypt) (salt : bcrypt.Salt) (now : Timestamp)
    (d : RegisterUserDTO) (db : Database) :
    (∃ user db', AuthService.register bcrypt salt now d db = (.ok user, db') ∧
        insertUser now { d with password := bcrypt.hash salt d.password } (some .user) db
          = .ok (user, db')) ∨
      ∃ e, AuthService.register bcrypt salt now d db = (.error e, db) := by
  rcases Sql.commit_cases (insertUser now { d with password := bcrypt.hash salt d.password }
    (some .user)) db with ⟨user, db', hok, hcommit⟩ | ⟨e, -, hcommit⟩
  · refine Or.inl ⟨user, db', ?_, hok⟩
    simp only [AuthService.register, insertOne, hcommit, Outcome.result_resolve,
      Outcome.db_resolve]
  · right
    simp only [AuthService.register, insertOne, hcommit, Outcome.result_reject, Outcome.db_reject]
    split
    · next h => cases h
    · exact ⟨_, rfl⟩
    · exact ⟨_, rfl⟩

theorem Registered.insertUser {bcrypt : Bcrypt} {accounts : List (RegisterUserDTO × UserRow)}
    {db db' : Database} (h : Registered bcrypt accounts db) {salt : bcrypt.Salt} {now : Timestamp}
    {d : RegisterUserDTO} {user : UserRow}
    (hok : insertUser now { d with password := bcrypt.hash salt d.password } (some .user) db
      = .ok (user, db')) : Registered bcrypt (accounts ++ [(d, user)]) db' := by
  obtain ⟨hrows, husername, hemail, hpassword, hunique⟩ := insertUser_eq_ok hok
  -- two rows of the table are two old ones, or the new one and an old one, or both the new one
  have hpair : ∀ {P : UserRow → UserRow → Prop}, (∀ u ∈ db.users.rows, ∀ v ∈ db.users.rows, P u v) →
      (∀ u ∈ db.users.rows, P u user ∧ P user u) → P user user →
        ∀ u ∈ db'.users.rows, ∀ v ∈ db'.users.rows, P u v := by
    intro P hold hnew hself u hu v hv
    rw [hrows, List.mem_append, List.mem_singleton] at hu hv
    rcases hu with hu | rfl <;> rcases hv with hv | rfl
    · exact hold u hu v hv
    · exact (hnew u hu).1
    · exact (hnew v hv).2
    · exact hself
  refine ⟨by rw [hrows, h.rows, List.map_append]; rfl, fun p hp => ?_, hpair h.username ?_ ?_,
    hpair h.email ?_ ?_⟩
  · rcases List.mem_append.1 hp with hp | hp
    · exact h.stores p hp
    · rw [List.mem_singleton.1 hp]
      exact ⟨husername, hemail, salt, hpassword⟩
  · exact fun u hu => ⟨fun he => absurd he (hunique u hu).1,
      fun he => absurd he.symm (hunique u hu).1⟩
  · exact fun _ => rfl
  · exact fun u hu => ⟨fun he => absurd he (hunique u hu).2,
      fun he => absurd he.symm (hunique u hu).2⟩
  · exact fun _ => rfl

theorem Registered.registerAll {bcrypt : Bcrypt} {accounts : List (RegisterUserDTO × UserRow)}
    {db : Database} (h : Registered bcrypt accounts db) (rs : List (Registration bcrypt)) :
    Registered bcrypt (accounts ++ (registerAll bcrypt rs db).1) (registerAll bcrypt rs db).2 := by
  induction rs generalizing accounts db with
  | nil => simpa [DecentDebates.registerAll] using h
  | cons r rs ih =>
    rcases register_cases bcrypt r.salt r.now r.registerUserDTO db with
      ⟨user, db', hregister, hok⟩ | ⟨e, hregister⟩
    · simp only [DecentDebates.registerAll, hregister]
      have hnext := ih (h.insertUser hok)
      rwa [List.append_assoc, List.singleton_append] at hnext
    · simp only [DecentDebates.registerAll, hregister]
      exact ih h

theorem registered_registerAll (bcrypt : Bcrypt) (lower : String → String)
    (rs : List (Registration bcrypt)) :
    Registered bcrypt (registerAll bcrypt rs (.empty lower)).1
      (registerAll bcrypt rs (.empty lower)).2 := by
  have hempty : Registered bcrypt [] (Database.empty lower) :=
    ⟨rfl, by simp, by simp [Database.empty], by simp [Database.empty]⟩
  exact hempty.registerAll rs

/-- An account asks for what one of the registrations asked for. -/
theorem exists_registration {bcrypt : Bcrypt} {rs : List (Registration bcrypt)} {db : Database}
    {p : RegisterUserDTO × UserRow} (hp : p ∈ (registerAll bcrypt rs db).1) :
    ∃ r ∈ rs, r.registerUserDTO = p.1 := by
  induction rs generalizing db with
  | nil => cases hp
  | cons r rs ih =>
    rcases register_cases bcrypt r.salt r.now r.registerUserDTO db with
      ⟨user, db', hregister, -⟩ | ⟨e, hregister⟩
    · simp only [registerAll, hregister] at hp
      rcases List.mem_cons.1 hp with rfl | hp
      · exact ⟨r, List.mem_cons_self, rfl⟩
      · obtain ⟨r', hr', he⟩ := ih hp
        exact ⟨r', List.mem_cons_of_mem _ hr', he⟩
    · simp only [registerAll, hregister] at hp
      obtain ⟨r', hr', he⟩ := ih hp
      exact ⟨r', List.mem_cons_of_mem _ hr', he⟩

/-! ## The lookup -/

section Lookup

variable {bcrypt : Bcrypt} {db : Database} {order : List UserRow → List UserRow}
  {name password : String} {user : UserRow}

/-- The rows with a name in one of the two columns. -/
def Named (db : Database) (name : String) (u : UserRow) : Prop :=
  u ∈ db.users.rows ∧ (u.username = name ∨ u.email = name)

theorem mem_lookup {u : UserRow} :
    u ∈ selectWhere (emailOrUsernameWhere name) db.users.rows ↔ Named db name u := by
  rw [mem_selectWhere, emailOrUsernameWhere, Truth.holds_or, Truth.holds_eq_some,
    Truth.holds_eq_some, Bool.or_eq_true, decide_eq_true_eq, decide_eq_true_eq, Option.some.injEq,
    Option.some.injEq, Named]

theorem login_eq (hname : IsText name) :
    AuthService.login bcrypt order ⟨name, password⟩ db =
      match (order (selectWhere (emailOrUsernameWhere name) db.users.rows)).head? with
      | none => .error .invalidCredentials
      | some user =>
        if bcrypt.compare password user.password then .ok user else .error .invalidCredentials := by
  have hlookup : getOneByEmailOrUsername order name db =
      .ok (order (selectWhere (emailOrUsernameWhere name) db.users.rows)).head? := by
    simp only [getOneByEmailOrUsername, text, if_pos hname]
    rfl
  simp only [AuthService.login, hlookup]
  cases (order (selectWhere (emailOrUsernameWhere name) db.users.rows)).head? <;> rfl

/-- If nobody else has the name, the lookup can only find its user. -/
theorem login_of_named (hname : IsText name) (horder : ∀ users, (order users).Perm users)
    (huser : Named db name user) (honly : ∀ u, Named db name u → u = user)
    (hpassword : bcrypt.compare password user.password = true) :
    AuthService.login bcrypt order ⟨name, password⟩ db = .ok user := by
  rw [login_eq hname]
  have hperm := horder (selectWhere (emailOrUsernameWhere name) db.users.rows)
  cases hfound : order (selectWhere (emailOrUsernameWhere name) db.users.rows) with
  | nil =>
    have hmem := hperm.mem_iff.2 (mem_lookup.2 huser)
    rw [hfound] at hmem
    cases hmem
  | cons u rest =>
    have hu : u = user := by
      refine honly u (mem_lookup.1 (hperm.mem_iff.1 ?_))
      rw [hfound]
      exact List.mem_cons_self
    subst hu
    simp [hpassword]

/-- Whoever logs in has the name. -/
theorem named_of_login (hname : IsText name) (horder : ∀ users, (order users).Perm users)
    (h : AuthService.login bcrypt order ⟨name, password⟩ db = .ok user) : Named db name user := by
  rw [login_eq hname] at h
  have hperm := horder (selectWhere (emailOrUsernameWhere name) db.users.rows)
  cases hfound : order (selectWhere (emailOrUsernameWhere name) db.users.rows) with
  | nil =>
    rw [hfound] at h
    cases h
  | cons u rest =>
    rw [hfound] at h
    simp only [List.head?_cons] at h
    split at h
    · cases h
      refine mem_lookup.1 (hperm.mem_iff.1 ?_)
      rw [hfound]
      exact List.mem_cons_self
    · cases h

/-- An order of rows in which a given one comes first. -/
def first (user : UserRow) (users : List UserRow) : List UserRow :=
  if user ∈ users then user :: users.erase user else users

theorem first_perm (user : UserRow) (users : List UserRow) : (first user users).Perm users := by
  unfold first
  split
  · next h => exact (List.perm_cons_erase h).symm
  · exact .refl _

/-- If logging in works in every order, nobody else has the name. -/
theorem eq_of_login (hname : IsText name)
    (h : ∀ order : List UserRow → List UserRow, (∀ users, (order users).Perm users) →
      AuthService.login bcrypt order ⟨name, password⟩ db = .ok user)
    {u : UserRow} (hu : Named db name u) : u = user := by
  have hlogin := h (first u) (first_perm u)
  rw [login_eq hname, first, if_pos (mem_lookup.2 hu)] at hlogin
  simp only [List.head?_cons] at hlogin
  split at hlogin
  · exact Except.ok.inj hlogin
  · cases hlogin

end Lookup

/-! ## Registered users find their accounts -/

section Accounts

variable {bcrypt : Bcrypt} {accounts : List (RegisterUserDTO × UserRow)} {db : Database}
  {p q : RegisterUserDTO × UserRow}

theorem StoresAccount.compare {d : RegisterUserDTO} {user : UserRow}
    (h : StoresAccount bcrypt d user) (hideal : bcrypt.Ideal) :
    bcrypt.compare d.password user.password = true := by
  obtain ⟨salt, hpassword⟩ := h.password
  rw [varchar_eq_self hpassword (hideal.hash salt d.password), hideal.compare]
  exact decide_eq_true rfl

theorem Registered.mem_rows (h : Registered bcrypt accounts db) (hp : p ∈ accounts) :
    p.2 ∈ db.users.rows :=
  h.rows ▸ List.mem_map_of_mem hp

theorem Registered.exists_account (h : Registered bcrypt accounts db) {u : UserRow}
    (hu : u ∈ db.users.rows) : ∃ q ∈ accounts, q.2 = u :=
  List.mem_map.1 (h.rows ▸ hu)

/-- A username that fits is stored as it is. -/
theorem Registered.username_eq (h : Registered bcrypt accounts db) (hp : p ∈ accounts)
    (hlen : p.1.username.length ≤ 80) : p.2.username = p.1.username := by
  rcases (varchar_eq_ok (h.stores p hp).username).2 with ⟨he, -⟩ | ⟨hlong, -, -⟩
  · exact he
  · omega

theorem Registered.email_eq (h : Registered bcrypt accounts db)
    (hemail : ∀ p ∈ accounts, p.1.EmailEnds) (hp : p ∈ accounts) : p.2.email = p.1.email :=
  varchar_eq_self (h.stores p hp).email (hemail p hp)

/-- With distinct names, the lookup by one of them has one answer. -/
theorem Registered.findsAccount (h : Registered bcrypt accounts db) (hideal : bcrypt.Ideal)
    (hemail : ∀ p ∈ accounts, p.1.EmailEnds) (hnames : NamesDistinct accounts)
    (hp : p ∈ accounts) : FindsAccount bcrypt db p.1 p.2 := by
  have hrow := h.mem_rows hp
  have husername := h.username_eq hp (hnames p hp).1
  have hpemail := h.email_eq hemail hp
  have hcompare := (h.stores p hp).compare hideal
  intro order horder name hname
  rcases List.mem_pair.1 hname with rfl | rfl
  · have htext := (varchar_eq_ok (h.stores p hp).email).1
    refine login_of_named htext horder ⟨hrow, Or.inr hpemail⟩ ?_ hcompare
    rintro u ⟨hu, hcolumn | hcolumn⟩
    · -- the username of `u` is the e-mail of `p`
      obtain ⟨q, hq, rfl⟩ := h.exists_account hu
      rw [h.username_eq hq (hnames q hq).1] at hcolumn
      exact ((hnames q hq).2 p hp hcolumn.symm).symm
    · exact h.email u hu p.2 hrow (hcolumn.trans hpemail.symm)
  · have htext := (varchar_eq_ok (h.stores p hp).username).1
    refine login_of_named htext horder ⟨hrow, Or.inl husername⟩ ?_ hcompare
    rintro u ⟨hu, hcolumn | hcolumn⟩
    · exact h.username u hu p.2 hrow (hcolumn.trans husername.symm)
    · -- the e-mail of `u` is the username of `p`
      obtain ⟨q, hq, rfl⟩ := h.exists_account hu
      rw [h.email_eq hemail hq] at hcolumn
      exact (hnames p hp).2 q hq hcolumn

/-- A name by which an account is found was stored, and nobody else has it. -/
theorem Registered.namesDistinct (h : Registered bcrypt accounts db)
    (hemail : ∀ p ∈ accounts, p.1.EmailEnds)
    (hfinds : ∀ p ∈ accounts, FindsAccount bcrypt db p.1 p.2) : NamesDistinct accounts := by
  intro p hp
  obtain ⟨htext, hstored⟩ := varchar_eq_ok (h.stores p hp).username
  have hlogin : ∀ order : List UserRow → List UserRow, (∀ users, (order users).Perm users) →
      AuthService.login bcrypt order ⟨p.1.username, p.1.password⟩ db = .ok p.2 :=
    fun order horder => hfinds p hp order horder _ (List.mem_pair.2 (Or.inr rfl))
  constructor
  · rcases hstored with ⟨-, hlen⟩ | ⟨hlong, hcut, hspace⟩
    · exact hlen
    · -- the row has neither the username nor, as it ends with a space, the e-mail
      have hnamed := named_of_login htext (fun _ => .refl _) (hlogin id fun _ => .refl _)
      rcases hnamed.2 with he | he
      · rw [he] at hcut
        omega
      · rw [h.email_eq hemail hp] at he
        exact absurd (he ▸ hspace) (hemail p hp)
  · intro q hq he
    refine eq_of_login htext hlogin ⟨h.mem_rows hq, Or.inr ?_⟩
    rw [h.email_eq hemail hq, he]

end Accounts

/-- **Login finds the right account exactly when the names are distinct.** For every sequence of
    registrations with valid e-mails: every account is found by its e-mail and by its username, in
    whatever order the lookup returns rows, if and only if no username is longer than its column
    and no username is the e-mail of another account. -/
theorem findsAccount_iff {bcrypt : Bcrypt} (hideal : bcrypt.Ideal) (lower : String → String)
    {rs : List (Registration bcrypt)} (hemail : ∀ r ∈ rs, r.registerUserDTO.EmailEnds) :
    (∀ p ∈ (registerAll bcrypt rs (.empty lower)).1,
      FindsAccount bcrypt (registerAll bcrypt rs (.empty lower)).2 p.1 p.2) ↔
      NamesDistinct (registerAll bcrypt rs (.empty lower)).1 := by
  have hregistered := registered_registerAll bcrypt lower rs
  have hends : ∀ p ∈ (registerAll bcrypt rs (.empty lower)).1, p.1.EmailEnds := by
    intro p hp
    obtain ⟨r, hr, he⟩ := exists_registration hp
    exact he ▸ hemail r hr
  constructor
  · exact hregistered.namesDistinct hends
  · exact fun hnames p hp => hregistered.findsAccount hideal hends hnames hp

/-! ## An e-mail as a username -/

/-- A hash that can be undone. -/
def plainBcrypt : Bcrypt where
  Salt := Unit
  hash := fun _ password => password ++ "$"
  compare := fun password hash => hash = password ++ "$"

theorem plainBcrypt_ideal : plainBcrypt.Ideal where
  compare := by
    intro _ password password'
    simp only [plainBcrypt, decide_eq_decide, String.append_left_inj]
    exact eq_comm
  hash := by
    intro _ password
    simp [plainBcrypt]

def register (email username : String) : Registration plainBcrypt := ⟨(), 0, email, username, "pw"⟩

def twoUsers : List (Registration plainBcrypt) :=
  [register "ann@example.com" "ann", register "bob@example.com" "bob"]

/-- Two users with different names find their accounts. -/
theorem findsAccount_twoUsers :
    (registerAll plainBcrypt twoUsers (.empty id)).1.length = 2 ∧
      ∀ p ∈ (registerAll plainBcrypt twoUsers (.empty id)).1,
        FindsAccount plainBcrypt (registerAll plainBcrypt twoUsers (.empty id)).2 p.1 p.2 :=
  ⟨by decide +kernel, (findsAccount_iff plainBcrypt_ideal id (by decide)).2 (by decide +kernel)⟩

/-- Somebody takes the e-mail of another user as a username. -/
def takesEmail : List (Registration plainBcrypt) :=
  [register "ann@example.com" "ann", ⟨(), 0, "bob@example.com", "ann@example.com", "other"⟩]

/-- A username of eighty characters and a space. -/
def tooLong : List (Registration plainBcrypt) :=
  [register "ann@example.com" (String.ofList (List.replicate 80 'a' ++ [' ']))]

/-- **Neither finds the account**: the row of the other user comes first, or no row at all. -/
theorem not_findsAccount :
    (∃ p ∈ (registerAll plainBcrypt takesEmail (.empty id)).1,
      ¬ FindsAccount plainBcrypt (registerAll plainBcrypt takesEmail (.empty id)).2 p.1 p.2) ∧
    ∃ p ∈ (registerAll plainBcrypt tooLong (.empty id)).1,
      ¬ FindsAccount plainBcrypt (registerAll plainBcrypt tooLong (.empty id)).2 p.1 p.2 := by
  have hnot : ∀ rs : List (Registration plainBcrypt),
      (∀ p ∈ (registerAll plainBcrypt rs (.empty id)).1, p.1.EmailEnds) →
      ¬ NamesDistinct (registerAll plainBcrypt rs (.empty id)).1 →
      ∃ p ∈ (registerAll plainBcrypt rs (.empty id)).1,
        ¬ FindsAccount plainBcrypt (registerAll plainBcrypt rs (.empty id)).2 p.1 p.2 := by
    intro rs hemail hnames
    by_contra hfinds
    push Not at hfinds
    exact hnames ((registered_registerAll plainBcrypt id rs).namesDistinct hemail hfinds)
  constructor
  · exact hnot takesEmail (by decide +kernel) (by decide +kernel)
  · exact hnot tooLong (by decide +kernel) (by decide +kernel)

end DecentDebates
