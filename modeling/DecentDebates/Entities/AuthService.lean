import DecentDebates.Entities.UserService

set_option autoImplicit false

/-! # Signing up and signing in (`auth.service.ts`)

bcrypt is a parameter. The lookup of an account has no `order by`, so the order of the rows that it
finds is a parameter as well. -/

namespace DecentDebates

open Relational

/-- What the service uses of bcrypt. -/
structure Bcrypt where
  Salt : Type
  hash : Salt → String → String
  compare : String → String → Bool

structure LoginUserDTO where
  emailOrUsername : String
  password : String

inductive AuthError where
  /-- `ConflictException` -/
  | conflict (message : String)
  /-- A plain `Error` with a message. -/
  | error (message : String)
  | invalidCredentials
  /-- An error of the database that is thrown on as it is. -/
  | sql (e : SqlError)
deriving DecidableEq, Repr

/-- The part of a user that a session keeps. -/
def getUserCookieFields (u : UserRow) : UserCookieData := ⟨u.id, u.role, u.username⟩

/-- `u.username = $1 or u.email = $1` -/
def emailOrUsernameWhere (emailOrUsername : String) (u : UserRow) : Truth :=
  (Truth.eq (some u.username) (some emailOrUsername)).or
    (Truth.eq (some u.email) (some emailOrUsername))

/-- The first of the rows that the lookup finds, in the order in which the server returns them. -/
def getOneByEmailOrUsername (order : List UserRow → List UserRow) (emailOrUsername : String)
    (db : Database) : Except SqlError (Option UserRow) := do
  let emailOrUsername ← text emailOrUsername
  return (order (selectWhere (emailOrUsernameWhere emailOrUsername) db.users.rows)).head?

namespace AuthService

/-- Registration stores the hash of the password. -/
def register (bcrypt : Bcrypt) (salt : bcrypt.Salt) (now : Timestamp)
    (registerUserDTO : RegisterUserDTO) (db : Database) : Except AuthError UserRow × Database :=
  let hashed := { registerUserDTO with password := bcrypt.hash salt registerUserDTO.password }
  let outcome := insertOne now hashed db
  match outcome.result with
  | .ok user => (.ok user, outcome.db)
  | .error (.sql .uniqueViolation) =>
    (.error (.conflict "The username or email is already taken."), outcome.db)
  | .error _ => (.error (.error "An error occurred while registering the user."), outcome.db)

def login (bcrypt : Bcrypt) (order : List UserRow → List UserRow) (loginUserDTO : LoginUserDTO)
    (db : Database) : Except AuthError UserRow :=
  match getOneByEmailOrUsername order loginUserDTO.emailOrUsername db with
  | .error e => .error (.sql e)
  | .ok none => .error .invalidCredentials
  | .ok (some user) =>
    if bcrypt.compare loginUserDTO.password user.password then .ok user
    else .error .invalidCredentials

end AuthService

end DecentDebates
