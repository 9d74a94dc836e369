import DecentDebates.System
import DecentDebates.Entities.DebatesController

set_option autoImplicit false

/-! # Searching titles

The query string of the search box becomes a part of an ILIKE pattern, in which some characters have
a meaning of their own. A literal search would find the titles that contain the query. -/

namespace DecentDebates

/-- The server's lower-case mapping maps characters one by one, and the characters with a meaning in
    patterns have no case. -/
structure LowersChars (lower : String → String) (lowerChar : Char → Char) : Prop where
  chars : ∀ s, (lower s).toList = s.toList.map lowerChar
  percent : ∀ c, lowerChar c = '%' ↔ c = '%'
  underscore : ∀ c, lowerChar c = '_' ↔ c = '_'
  backslash : ∀ c, lowerChar c = '\\' ↔ c = '\\'

/-- The characters with a meaning in patterns. -/
def IsSpecial (c : Char) : Prop := c = '%' ∨ c = '_' ∨ c = '\\'

instance (c : Char) : Decidable (IsSpecial c) := inferInstanceAs (Decidable (_ ∨ _))

/-- The shortest text that matches the query and a `%` behind it: nothing for a `%`, any character
    for a `_`, and for a backslash the character behind it. -/
def shortestMatch : List Char → List Char
  | [] => []
  | ['\\'] => ['%']
  | '\\' :: c :: q => c :: shortestMatch q
  | '%' :: q => shortestMatch q
  | '_' :: q => 'x' :: shortestMatch q
  | c :: q => c :: shortestMatch q

/-- The title contains the query text, compared case-insensitively. -/
def Database.TitleContains (db : Database) (queryStr : String) (d : DebateRow) : Prop :=
  (db.lower queryStr).toList <:+: (db.lower d.title).toList

/-- Of any public debates with tags, the search for this query finds those whose title contains it,
    each once. -/
def SearchesLiterally (lower : String → String) (queryStr : String) : Prop :=
  ∀ db : Database, db.Reachable → db.lower = lower →
    ∃ debates, getAll (some ⟨some queryStr, none⟩) db = .ok debates ∧
      (debates.map Debate.id).Nodup ∧
        ∀ n, n ∈ debates.map Debate.id ↔ ∃ d ∈ db.debates.rows, d.id = n ∧ db.DebateAccepted d ∧
          db.tagsOf d ≠ [] ∧ db.TitleContains queryStr d

end DecentDebates
