import SchemaSync.Text.Quoted

/-! How a database server is reached. -/

namespace SchemaSync

/-- A user with a password and, unless databases are opened as files, a server. -/
structure Connection where
  user : String
  password : String
  host : Option String := none
  port : Option Int := none
  charset : String := "UTF8"
  deriving DecidableEq, Repr

namespace Connection

/-- The server, if there is one with a name that is not empty. -/
def server? (connection : Connection) : Option String :=
  connection.host.filter (!·.isEmpty)

/-- The text that names a database to the driver: the path alone, or the server, its port and the
path. A port of zero is no port. -/
def dsn (connection : Connection) (database : String) : String :=
  match connection.server? with
  | none => database
  | some host =>
    match connection.port.filter (· ≠ 0) with
    | none => host ++ ":" ++ database
    | some port => host ++ "/" ++ toString port ++ ":" ++ database

def describeOption (value : Option String) : String :=
  value.getD "None"

/-- The connection in words, without the password. -/
def describe (connection : Connection) : String :=
  "ConnectionConfig(user=" ++ Text.quoted connection.user ++ ", password='***', host=" ++
    describeOption (connection.host.map Text.quoted) ++ ", port=" ++
    describeOption (connection.port.map toString) ++ ", charset=" ++
    Text.quoted connection.charset ++ ")"

end Connection

end SchemaSync
