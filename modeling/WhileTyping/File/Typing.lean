import WhileTyping.File
import WhileTyping.Registry.Build
import WhileTyping.Stmt.Typing

/-!
# Checking declarations

The body of an alias is a value type. The parameters of a method have value types and distinct
names, and its body is checked with them in scope. A method may call any method of the file, since
signatures are looked up in the registry.
-/

namespace WhileTyping

/-- The environment of a method body, from the parameters and an environment before them. A
parameter without a span is reported at the span of the method. -/
def Parameter.bindAll (reg : Registry) (span : Option Span) (env : Env) :
    List Parameter → Except TypeError Env
  | [] => .ok env
  | p :: ps => do
    reg.expectValueType p.ty (p.span.or span)
    if env.contains p.name then .error ⟨.duplicateDeclaration p.name, p.span.or span⟩
    else Parameter.bindAll reg span (env.put p.name p.ty) ps

namespace Decl

/-- The check of an alias or of the signature of a method. For a method it gives the environment in
which the body is checked. -/
def checkSignature (reg : Registry) : Decl → Check Env
  | .alias d => do
    Check.report (.aliasStarted d.name d.ty)
    reg.expectValueType d.ty d.span
    return {}
  | .method d => do
    Check.report (.methodStarted d.name d.params.length d.ret)
    let env ← Parameter.bindAll reg d.span {} d.params
    reg.expectReturnType d.ret d.span
    return env

def check (reg : Registry) (d : Decl) : Visit Decl Unit :=
  Visit.after (d.checkSignature reg) d fun env =>
    match d with
    | .alias d => ⟨.alias d, return ()⟩
    | .method d =>
      (Stmt.checkAll ⟨reg, d.ret⟩ env d.body).within fun left => .method { d with body := left.2 }

end Decl

end WhileTyping
