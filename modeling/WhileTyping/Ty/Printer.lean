import WhileTyping.Ty.Basic

/-!
# Text of a type

An array of a union puts its element type in parentheses, since `int|bool[]` reads as a union whose
last member is an array.
-/

namespace WhileTyping.Ty

mutual
def render : Ty → String
  | .void => "void"
  | .bool => "bool"
  | .char => "char"
  | .int => "int"
  | .string => "string"
  | .inferred => "var"
  | .array (.union ts) => "(" ++ renderMembers ts ++ ")[]"
  | .array e => render e ++ "[]"
  | .record fs => "\x7b" ++ renderFields fs ++ "\x7d"
  | .named n => n
  | .union ts => renderMembers ts

def renderFields : List Field → String
  | [] => ""
  | [⟨n, t⟩] => render t ++ " " ++ n
  | ⟨n, t⟩ :: fs => render t ++ " " ++ n ++ ", " ++ renderFields fs

def renderMembers : List Ty → String
  | [] => ""
  | [t] => render t
  | t :: ts => render t ++ "|" ++ renderMembers ts
end

end WhileTyping.Ty
