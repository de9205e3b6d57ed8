/-
  Conform.Test.Checks

  What the built-in checks say, and how a test runs. Most checks pass on an
  undefined or null value and leave it to the check for presence.
-/

import Conform.Test.Basic
import Conform.Text.Pattern.Reader

namespace Conform

/-! ## Forms of text -/

/-- One to 63 letters, digits and inner hyphens. -/
private def hostLabel : String := "[a-z0-9](?:[a-z0-9-]\x7b0,61\x7d[a-z0-9])?"

/-- The form of an e-mail address. -/
def emailSource : String :=
  "(?i)^[a-z0-9.!#$%&'*+/=?^_`\x7b|\x7d~-]+@" ++ hostLabel ++ "(?:\\." ++ hostLabel ++ ")+$"

/-- The form of a web address: scheme, user, host, port, path, query and
    fragment. -/
def urlSource : String :=
  "(?i)^((https?|ftp):)?//([^\\s/?#@]+@)?" ++
    "([a-z0-9-]+(\\.[a-z0-9-]+)*\\.?|\\d\x7b1,3\x7d(\\.\\d\x7b1,3\x7d)\x7b3\x7d)" ++
    "(:\\d*)?(/[^\\s?#]*)?(\\?[^\\s#]*)?(#\\S*)?$"

def emailPattern : Pattern := (Pattern.ofText? emailSource).getD .empty

def urlPattern : Pattern := (Pattern.ofText? urlSource).getD .empty

/-! ## Measures -/

/-- The number of characters; other values than texts have none. -/
def charCount (value : Option Value) : Nat :=
  match value with
  | some (.str s) => s.length
  | _ => 0

/-- The number of items; other values than arrays have none. -/
def itemCount (value : Option Value) : Nat :=
  match value with
  | some (.arr items) => items.length
  | _ => 0

namespace TestContext

/-- A judgement on texts; other values pass. -/
def onText (ctx : TestContext) (ok : String → Bool) : Bool :=
  match ctx.value with
  | some (.str s) => ok s
  | _ => true

/-- Compares a size with a parameter. A parameter that is no number fails. -/
def compareSize (ctx : TestContext) (size : Option Value → Nat) (param : String)
    (ok : Binary64 → Binary64 → Bool) : Bool :=
  isAbsent ctx.value ||
    (ctx.numberParam param).any fun bound => ok (Binary64.ofInt (size ctx.value)) bound

/-- Compares a number with a parameter. A value or a parameter that is no number
    fails. -/
def compareNumber (ctx : TestContext) (param : String) (ok : Binary64 → Binary64 → Bool) : Bool :=
  isAbsent ctx.value ||
    match ctx.value.bind Value.toBinary64?, ctx.numberParam param with
    | some v, some bound => ok v bound
    | _, _ => false

/-- Whether a value is listed, references being read at the value's place. -/
def isListed (ctx : TestContext) (set : EntrySet) : Bool :=
  match ctx.value with
  | some v => set.admits v fun r => r.value ctx.parent ctx.context
  | none => false

/-- The violation that names the type of the schema. -/
def typeViolation (ctx : TestContext) : Violation :=
  ctx.violation (.ofParams [("type", .value (.str ctx.subject.node.kind.name))])

/-- The violation that lists the entries of a set. -/
def listViolation (ctx : TestContext) (set : EntrySet) : Violation :=
  ctx.violation (.ofParams [("values", .value (.str set.display))])

end TestContext

/-! ## Judgements -/

/-- The judgement of a check with a yes or no for an answer. -/
def Check.holds (check : Check) (ctx : TestContext) : Bool :=
  match check with
  | .typed => ctx.value.all ctx.subject.node.isType
  | .allowed => ctx.value.isNone || ctx.subject.node.allow.isEmpty || ctx.isListed ctx.subject.node.allow
  | .notDenied => !ctx.isListed ctx.subject.node.deny
  | .present => !isAbsent ctx.value
  | .textNotEmpty => ctx.onText fun s => !s.isEmpty
  | .itemsNotEmpty =>
    match ctx.value with
    | some (.arr items) => !items.isEmpty
    | _ => true
  | .textLength => ctx.compareSize charCount "length" Binary64.equals
  | .textMin => ctx.compareSize charCount "min" fun n m => m.atMost n
  | .textMax => ctx.compareSize charCount "max" Binary64.atMost
  | .itemsMin => ctx.compareSize itemCount "min" fun n m => m.atMost n
  | .itemsMax => ctx.compareSize itemCount "max" Binary64.atMost
  | .atLeast => ctx.compareNumber "min" fun v b => b.atMost v
  | .atMost => ctx.compareNumber "max" Binary64.atMost
  | .above => ctx.compareNumber "more" fun v b => b.less v
  | .below => ctx.compareNumber "less" Binary64.less
  | .whole =>
    match ctx.value with
    | some (.num n) => n.isWhole
    | _ => true
  | .email => ctx.onText fun s => s.isEmpty || emailPattern.occursIn s
  | .url => ctx.onText fun s => s.isEmpty || urlPattern.occursIn s
  | .trimmed => ctx.onText fun s => trimText s == s
  | .lowercase => ctx.onText fun s => lowerText s == s
  | .uppercase => ctx.onText fun s => upperText s == s

/-- The judgement of a check. The checks of type and lists report what they
    looked for. -/
def Check.judge (check : Check) (ctx : TestContext) : Outcome :=
  if check.holds ctx then .pass
  else
    match check with
    | .typed => .error ctx.typeViolation
    | .allowed => .error (ctx.listViolation ctx.subject.node.allow)
    | .notDenied => .error (ctx.listViolation ctx.subject.node.deny)
    | _ => .fail

def Predicate.judge (p : Predicate) (ctx : TestContext) : Outcome :=
  match p with
  | .check c => c.judge ctx
  | .custom _ judge => judge ctx

/-! ## Running a test -/

namespace Test

/-- The name under which a pending test is refused. -/
def shownName (t : Test) : String := t.name.getD "unnamed"

def outcome (t : Test) (subject : Subject) : Outcome :=
  t.predicate.judge ⟨t.toTestHead, subject⟩

/-- The violation of a plain failure. -/
def plainViolation (t : Test) (subject : Subject) : Violation :=
  TestContext.violation ⟨t.toTestHead, subject⟩ .none

/-- The work of a test on a value. A pending judgement is refused during
    synchronous validation. -/
def run (t : Test) (sync : Bool) (subject : Subject) : Job Unit :=
  let outcome := t.outcome subject
  if sync && outcome.isPending then .fail (.pendingTest t.shownName)
  else outcome.settle (t.plainViolation subject)

end Test

end Conform
