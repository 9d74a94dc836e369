import DecentDebates.Entities.AuthService

set_option autoImplicit false

/-! # Finding an account

The username and the e-mail are unique, each in its own column, and a user signs in with either of
them. -/

namespace DecentDebates

/-- A password is accepted exactly for its own hash, and no hash ends with a space. -/
structure Bcrypt.Ideal (bcrypt : Bcrypt) : Prop where
  compare : ∀ salt password password',
    bcrypt.compare password' (bcrypt.hash salt password) = decide (password' = password)
  hash : ∀ salt password, (bcrypt.hash salt password).toList.getLast? ≠ some ' '

/-- A request to register. -/
structure Registration (bcrypt : Bcrypt) where
  salt : bcrypt.Salt
  now : Timestamp
  registerUserDTO : RegisterUserDTO

/-- The database after a sequence of registrations, and the accounts of the successful ones: what
    was asked for, and the row. -/
def registerAll (bcrypt : Bcrypt) :
    List (Registration bcrypt) → Database → List (RegisterUserDTO × UserRow) × Database
  | [], db => ([], db)
  | r :: rs, db =>
    match AuthService.register bcrypt r.salt r.now r.registerUserDTO db with
    | (.ok user, db') =>
      let (accounts, db'') := registerAll bcrypt rs db'
      ((r.registerUserDTO, user) :: accounts, db'')
    | (.error _, db') => registerAll bcrypt rs db'

/-- A valid e-mail does not end with a space. -/
def RegisterUserDTO.EmailEnds (d : RegisterUserDTO) : Prop := d.email.toList.getLast? ≠ some ' '

instance (d : RegisterUserDTO) : Decidable d.EmailEnds := inferInstanceAs (Decidable (_ ≠ _))

/-- With her e-mail or her username, and her password, the user finds her account, in whatever order
    the lookup returns its rows. -/
def FindsAccount (bcrypt : Bcrypt) (db : Database) (d : RegisterUserDTO) (user : UserRow) : Prop :=
  ∀ order : List UserRow → List UserRow, (∀ users, (order users).Perm users) →
    ∀ name ∈ [d.email, d.username],
      AuthService.login bcrypt order ⟨name, d.password⟩ db = .ok user

/-- Every account can be found by its names: no username was too long for its column, and none is
    the e-mail of another account. -/
def NamesDistinct (accounts : List (RegisterUserDTO × UserRow)) : Prop :=
  ∀ p ∈ accounts, p.1.username.length ≤ 80 ∧
    ∀ q ∈ accounts, q.1.email = p.1.username → q.2 = p.2

instance (accounts : List (RegisterUserDTO × UserRow)) : Decidable (NamesDistinct accounts) :=
  inferInstanceAs (Decidable (∀ p ∈ accounts, _ ∧ ∀ q ∈ accounts, _ → _))

end DecentDebates
