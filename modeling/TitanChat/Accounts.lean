import Mathlib.Data.List.Sort
import TitanChat.Internal.Json

/-!
# The accounts

The three PostgreSQL tables of `api/models.py` and what a request does to them. A handler works in a
session of `get_db`, which commits after the handler has returned: an exception of the handler or a
commit that fails leaves the tables as they were, but not what the handler has done elsewhere.

What the columns take (the length of a text, no zero byte in it) is left open: `Columns` says it. No
route shows when an admin was created, so that column is left out.

## Main definitions

* `Uuid`: an identifier in its canonical text form
* `Admin`, `Agent`, `AccountBot`, `Accounts`: the rows and the tables
* `Rows.add`, `Rows.store`: a flush, with the constraints of the table
* `Site`, `getDb`: a request in its session
-/

namespace TitanChat

/-! ### Identifiers -/

/-- A digit of a `uuid.UUID` as text. -/
def isHex (c : Char) : Bool := c.isDigit || ('a' ≤ c && c ≤ 'f')

/-- Thirty-two digits in groups of 8, 4, 4, 4 and 12. -/
def isCanonical (text : String) : Bool :=
  (text.toList.map fun c => if isHex c then '0' else c) =
    "00000000-0000-0000-0000-000000000000".toList

/-- A `uuid.UUID`, by its `str`. -/
structure Uuid where
  str : String
  canonical : isCanonical str = true
  deriving DecidableEq

namespace Uuid

/-- `uuid.UUID(text)`, for a text that `str` has made. -/
def parse (text : String) : Option Uuid :=
  if h : isCanonical text = true then some ⟨text, h⟩ else none

@[simp] theorem parse_str (u : Uuid) : parse u.str = some u := dif_pos u.canonical

@[simp] theorem str_ne_empty (u : Uuid) : u.str ≠ "" := by
  intro h
  have hcanonical := u.canonical
  rw [h] at hcanonical
  exact absurd hcanonical (by decide)

theorem str_injective : Function.Injective str := by
  rintro ⟨a, _⟩ ⟨b, _⟩ rfl
  rfl

end Uuid

/-! ### The tables -/

/-- A row of `admins`. -/
structure Admin where
  id : Uuid
  email : String
  password_hash : String
  name : String
  is_active : Bool

/-- A row of `agents`. -/
structure Agent where
  id : Uuid
  admin_id : Uuid
  email : String
  password_hash : String
  name : String
  skills : List String
  max_chats : ℤ
  is_active : Bool
  /-- `func.now()`, in microseconds. -/
  created_at : ℤ

/-- A row of `bots`. -/
structure AccountBot where
  id : Uuid
  admin_id : Uuid
  name : String
  api_key : String
  config : Dict Json
  is_active : Bool
  created_at : ℤ

/-- A table, by primary key. -/
abbrev Rows (α : Type) := AList fun _ : Uuid => α

structure Accounts where
  admins : Rows Admin
  agents : Rows Agent
  bots : Rows AccountBot

/-- The rows that PostgreSQL can store. -/
structure Columns where
  admin : Admin → Bool
  agent : Agent → Bool
  bot : AccountBot → Bool

/-- `select(..).where(..)` on a table. -/
def Rows.select {α : Type} (rows : Rows α) (p : α → Bool) : List α :=
  (rows.entries.map Sigma.snd).filter p

/-- `order_by(..created_at.desc())`. Rows of the same time stay as they are. -/
def newestRows {α : Type} (created_at : α → ℤ) (rows : List α) : List α :=
  rows.insertionSort fun a b => created_at b ≤ created_at a

/-- The flush of a new row: primary key, unique column and the values. -/
def Rows.add {α : Type} (rows : Rows α) (key : Uuid) (row : α) (unique : α → String)
    (fits : α → Bool) : Option (Rows α) :=
  if key ∈ rows || !(rows.select fun r => unique r = unique row).isEmpty || !fits row then none
  else some (rows.insert key row)

/-- The flush of a changed row. -/
def Rows.store {α : Type} (rows : Rows α) (key : Uuid) (row : α) (fits : α → Bool) :
    Option (Rows α) :=
  if fits row then some (rows.insert key row) else none

theorem Rows.notMem_of_add {α : Type} {rows rows' : Rows α} {key : Uuid} {row : α}
    {unique : α → String} {fits : α → Bool} (h : rows.add key row unique fits = some rows') :
    key ∉ rows ∧ rows' = rows.insert key row := by
  unfold Rows.add at h
  split at h
  · exact absurd h nofun
  · next hfree =>
    simp only [Bool.or_eq_true, decide_eq_true_eq, not_or] at hfree
    exact ⟨hfree.1.1, (Option.some.inj h).symm⟩

/-! ### A request -/

/-- What a route raises. -/
structure HTTPException where
  status_code : ℕ
  detail : String
  deriving DecidableEq, Repr

/-- What the client gets for any other exception. -/
def internalServerError : HTTPException := ⟨500, "Internal Server Error"⟩

/-- What the API server works on: PostgreSQL, and the strings in Redis. -/
structure Site where
  db : Accounts
  redis : String → Option String

/-- `get_db` around a handler. The handler works on the tables of its transaction; `commits` says
whether the commit goes through. -/
def getDb {α : Type} (commits : Bool) (handler : Site → Except HTTPException α × Site) (s : Site) :
    Except HTTPException α × Site :=
  match handler s with
  | (.error e, s') => (.error e, { s' with db := s.db })
  | (.ok a, s') =>
    if commits then (.ok a, s') else (.error internalServerError, { s' with db := s.db })

end TitanChat
