/-
  Directives: attributes that bind an element to data.

  The name of a directive attribute is `v-` and a name, with a colon and an
  argument where the directive takes one.  `Directive.parse` reads such a name,
  `Directive.display` writes it.
-/

namespace DataBinding

/-- What an attribute binds. -/
inductive Directive where
  /-- The text of the element. -/
  | text
  /-- The markup in the element. -/
  | html
  /-- The value of the element, in both directions. -/
  | model
  /-- An attribute. -/
  | bind (target : String)
  /-- An event, to a method. -/
  | on (eventType : String)
  deriving DecidableEq

/-- Why the name of a directive is refused. -/
inductive DirectiveError where
  /-- There is no such directive. -/
  | unknown (body : String)
  /-- The argument is missing. -/
  | missingArgument (name : String)
  deriving DecidableEq

/-- A refused directive in words. -/
def DirectiveError.message : DirectiveError → String
  | unknown body => s!"unknown directive 'v-{body}'"
  | missingArgument name => s!"directive 'v-{name}' requires an argument, e.g. 'v-{name}:name'"

namespace Directive

/-- The name of a directive. -/
def name : Directive → String
  | text => "text"
  | html => "html"
  | model => "model"
  | bind _ => "bind"
  | on _ => "on"

/-- The argument of a directive that takes one. -/
def argument? : Directive → Option String
  | bind target => some target
  | on eventType => some eventType
  | _ => none

/-- The attribute name of a directive. -/
def display (d : Directive) : String :=
  match d.argument? with
  | some argument => "v-" ++ d.name ++ ":" ++ argument
  | none => "v-" ++ d.name

/-- The directive with a name and an argument; `body` is both as written. -/
def ofParts (body name argument : String) : Except DirectiveError Directive :=
  let taking := fun (make : String → Directive) =>
    if argument.isEmpty then .error (.missingArgument name) else .ok (make argument)
  if name = "text" then .ok .text
  else if name = "html" then .ok .html
  else if name = "model" then .ok .model
  else if name = "bind" then taking .bind
  else if name = "on" then taking .on
  else .error (.unknown body)

/-- The directive that an attribute name stands for; none if it does not begin
    with `v-`.  The argument is all that follows the first colon. -/
def parse (attributeName : String) : Except DirectiveError (Option Directive) :=
  match attributeName.toList with
  | 'v' :: '-' :: body =>
    let name := body.takeWhile (· ≠ ':')
    let argument := (body.dropWhile (· ≠ ':')).drop 1
    (ofParts (String.ofList body) (String.ofList name) (String.ofList argument)).map some
  | _ => .ok none

end Directive

end DataBinding
