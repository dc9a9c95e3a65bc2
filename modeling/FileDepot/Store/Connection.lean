import FileDepot.Value.Access

/-!
# Connections

A connection is a client with the name of the database that holds the buckets.

Contents:

* `Client` — how a client is reached;
* `Connection` — a client and a database;
* `Connection.open` — the checks on both;
* `Connection.bucketName` — the bucket that a name selects.
-/

namespace FileDepot

/-- The bucket that stands for a missing name. -/
def defaultBucket : String := "fs"

/-- How a client is reached: its address and its options, if it was made from settings. -/
structure Client where
  address : Option String := none
  options : List (String × Int) := []
  deriving Repr, DecidableEq, Inhabited

namespace Client

/-- The client of an address and a timeout in milliseconds, which holds for connecting and for finding
a server. -/
def ofAddress (address : String) (timeout : Int) : Client where
  address := some address
  options := [("connectTimeoutMS", timeout), ("serverSelectionTimeoutMS", timeout)]

end Client

/-- A client and the database that holds the buckets. -/
structure Connection where
  client : Client
  database : String
  deriving Repr, DecidableEq, Inhabited

namespace Connection

/-- Connects a client, which must be there, to a database, whose name must not be blank. -/
def «open» (client : Option Client) (database : Value) : Except Failure Connection :=
  match client with
  | none => .error (.invalid "MongoClient must not be None")
  | some client =>
    if !database.truthy then .error (.invalid "Database name must not be empty")
    else
      match database.text? with
      | none => .error .lacksOperation
      | some name =>
        if Text.isBlankText name then .error (.invalid "Database name must not be empty")
        else .ok ⟨client, name⟩

/-- The bucket that a name selects; what counts as false selects the default one. -/
def bucketName (name : Value) : Value :=
  if name.truthy then name else .text defaultBucket

/-- The bucket that an optional name selects. -/
def bucketOf (name : Option String) : String :=
  match name with
  | none => defaultBucket
  | some s => if s = "" then defaultBucket else s

end Connection

end FileDepot
