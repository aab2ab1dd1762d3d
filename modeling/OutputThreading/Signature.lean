import OutputThreading.Print
import OutputThreading.Return

/-!
# Signatures

Two facts about a template decide how calls of it are threaded: whether it produces output, and
whether it returns a value of its own.
-/

namespace OutputThreading

/-- Whether a template produces output. -/
inductive OutputKind where
  /-- The template prints, or calls a template that does. -/
  | producing
  /-- The template has no output. -/
  | pure
deriving Repr, DecidableEq

/-- Whether a template returns a value. -/
inductive ReturnKind where
  /-- Some return statement of the template has a value. -/
  | valued
  /-- The template only ever returns without a value. -/
  | bare
deriving Repr, DecidableEq

/-- What a caller has to know about a template. -/
structure Signature where
  /-- Whether the template produces output. -/
  output : OutputKind
  /-- Whether the template returns a value. -/
  returns : ReturnKind
deriving Repr, DecidableEq

namespace Signature

/-- The template produces output. -/
def isProducing (signature : Signature) : Bool :=
  signature.output = .producing

/-- The signature that the prints and returns of a text show. -/
def ofText (text : Text) : Signature where
  output := if Print.form.occursIn text then .producing else .pure
  returns := if (Return.form.phrases text).any Return.isValued then .valued else .bare

end Signature

/-- The signatures of the templates that are defined. -/
abbrev Signatures := Text → Option Signature

end OutputThreading
