/-! What a command line asks for. -/

namespace DocPath.Cli

inductive Command where
  | flatten (input : Option String)
  | unflatten (input : Option String) (compact : Bool)
  | get (path : String) (input : Option String) (fallback : Option String)
  | set (path : String) (value : String) (input : Option String) (new : Bool)
  | parse (path : String) (lenient : Bool)
  | name (segments : String)
deriving DecidableEq

structure Request where
  command : Command
  output : Option String
  indent : Nat
deriving DecidableEq

end DocPath.Cli
