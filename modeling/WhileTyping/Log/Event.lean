import WhileTyping.Log.Logger
import WhileTyping.TypeError

/-!
# Events

What checking reports of its course, each at a level and from a source. A logger turns events into
lines.
-/

namespace WhileTyping.Log

/-- The part of the checker that an event comes from. -/
inductive Source where
  | session
  | declarations
  | statements
  | expressions
  | environment
  | registry
  | bounds
  | intersections
  deriving DecidableEq, Repr

def Source.path : Source → String
  | .session => "whilec_typecheck"
  | .declarations => "whilec_typecheck::check::decl"
  | .statements => "whilec_typecheck::check::stmt"
  | .expressions => "whilec_typecheck::check::expr"
  | .environment => "whilec_typecheck::context::env"
  | .registry => "whilec_typecheck::context::registry"
  | .bounds => "whilec_typecheck::subtype::lub"
  | .intersections => "whilec_typecheck::subtype::intersect"

inductive Event where
  /-- A walk along aliases came back to a name on its path. -/
  | aliasCycle (name : String) (path : List String)
  | registryBuilt (methods aliases : Nat)
  /-- The running bound of a list of types was replaced by one of them. -/
  | boundRaised (old new : Ty)
  | noCommonField
  | commonFields (record : Ty)
  | variableRefined (name : String) (old new : Ty)
  | variableMerged (name : String) (left right result : Ty)
  | unionAccessed (field : String) (ty : Ty)
  | cellFilled (name : String) (ty : Ty)
  | caseEntered (name : String) (selector ty : Ty)
  | aliasStarted (name : String) (ty : Ty)
  | methodStarted (name : String) (params : Nat) (ret : Ty)
  | declarationFailed (name : String) (error : TypeError) (span : Option Span)
  | fileFinished (declarations : Nat) (file : Option String) (failed : Nat)
  deriving DecidableEq

namespace Event

def level : Event → Level
  | .registryBuilt _ _ | .aliasStarted _ _ | .methodStarted _ _ _ | .declarationFailed _ _ _
  | .fileFinished _ _ _ => .debug
  | _ => .trace

def source : Event → Source
  | .aliasCycle _ _ | .registryBuilt _ _ => .registry
  | .boundRaised _ _ => .bounds
  | .noCommonField | .commonFields _ => .intersections
  | .variableRefined _ _ _ | .variableMerged _ _ _ _ => .environment
  | .unionAccessed _ _ => .expressions
  | .cellFilled _ _ | .caseEntered _ _ _ => .statements
  | .aliasStarted _ _ | .methodStarted _ _ _ => .declarations
  | .declarationFailed _ _ _ | .fileFinished _ _ _ => .session

/-- A place as events show it. -/
def renderPlace : Option Span → String
  | none => "None"
  | some s =>
    "Some(Span \x7b start: " ++ toString s.start ++ ", end: " ++ toString s.stop ++ " \x7d)"

def message : Event → String
  | .aliasCycle name path => "alias cycle through `" ++ name ++ "`: " ++ " -> ".intercalate path
  | .registryBuilt methods aliases =>
    "registry built: " ++ toString methods ++ " methods, " ++ toString aliases ++ " aliases"
  | .boundRaised old new => "lub: " ++ old.render ++ " -> " ++ new.render
  | .noCommonField => "record intersection is empty"
  | .commonFields record => "record intersection: " ++ record.render
  | .variableRefined name old new =>
    "refine `" ++ name ++ "`: " ++ old.render ++ " -> " ++ new.render
  | .variableMerged name left right result =>
    "merge `" ++ name ++ "`: " ++ left.render ++ " / " ++ right.render ++ " => " ++ result.render
  | .unionAccessed field ty => "access `" ++ field ++ "` on union " ++ ty.render
  | .cellFilled name ty => "resolve `var " ++ name ++ "` to " ++ ty.render
  | .caseEntered name selector ty =>
    "match case `" ++ name ++ "`: " ++ selector.render ++ " narrowed to " ++ ty.render
  | .aliasStarted name ty => "checking type " ++ name ++ " is " ++ ty.render
  | .methodStarted name params ret =>
    "checking method " ++ name ++ "(" ++ toString params ++ " params) -> " ++ ret.render
  | .declarationFailed name error span =>
    "declaration `" ++ name ++ "` failed: " ++ error.message ++ " (at " ++ renderPlace span ++ ")"
  | .fileFinished declarations file failed =>
    "checked " ++ toString declarations ++ " declarations in " ++ file.getD "<input>" ++ ": " ++
      toString failed ++ " failed"

end Event

/-- What a logger writes for a course of events. -/
def Logger.writeAll (l : Logger) (events : List Event) : String :=
  String.join (events.map fun e => l.write e.level e.source.path e.message)

end WhileTyping.Log
