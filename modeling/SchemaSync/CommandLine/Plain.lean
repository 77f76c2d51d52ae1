import SchemaSync.CommandLine.Markup
import SchemaSync.CommandLine.Screen

/-! What the program shows, as plain lines for a terminal without colours. -/

namespace SchemaSync.CommandLine

/-- A text without its tags, given how many characters to keep as they are and then how many to
drop. A tag after a backslash is text, and the backslash is not. -/
def withoutTags (keep skip : Nat) (cs : List Char) : List Char :=
  match cs with
  | [] => []
  | c :: rest =>
    match keep, skip with
    | keep + 1, skip => c :: withoutTags keep skip rest
    | 0, skip + 1 => withoutTags 0 skip rest
    | 0, 0 =>
      match frontTag? (c :: rest) with
      | some length => withoutTags 0 (length - 1) rest
      | none =>
        if c == '\\' && rest.head? == some '[' then withoutTags 1 0 rest
        else c :: withoutTags 0 0 rest

def plain (text : String) : String :=
  String.ofList (withoutTags 0 0 text.toList)

def plainRow (cells : List String) : String :=
  "  " ++ String.intercalate "  " (cells.map plain)

def levelName : LogLevel → String
  | .debug => "DEBUG"
  | .info => "INFO"
  | .warning => "WARNING"
  | .error => "ERROR"

def Item.plainLines : Item → List String
  | .line text => [plain text]
  | .table title header rows => plain title :: (header.toList ++ rows).map plainRow
  | .code sql => [sql]
  | .question text default => [text ++ if default then " (Y/n)" else " (y/N)"]
  | .log record => [levelName record.level ++ " " ++ record.message]

/-- A plain terminal shows everything. -/
def plainScreen : Screen where
  escape := escape
  refusal? _ := none
  shows_escaped _ _ _ := rfl
  shows_log _ := rfl

end SchemaSync.CommandLine
