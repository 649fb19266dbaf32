import WebhookRelay.Log.Settings
import WebhookRelay.Number.Decimal
import WebhookRelay.Text.Split

/-!
# Log filters

A filter is a list of directives between commas. A directive names a target, a level
or both; it decides about the lines of all targets that begin with its target. Of two
directives that apply the one with the longer target decides, and the later one of two
with the same target. A directive about a span says nothing about lines outside of
every span.
-/

set_option autoImplicit false

namespace WebhookRelay

structure LogDirective where
  /-- How the targets begin that it is about. -/
  target : List Char
  /-- The lightest level that passes; none if nothing passes. -/
  lightest : Option LogLevel
  aboutSpans : Bool := false
  deriving DecidableEq, Repr

namespace LogDirective

def numbered? : Nat → Option (Option LogLevel)
  | 0 => some none
  | 1 => some (some .error)
  | 2 => some (some .warn)
  | 3 => some (some .info)
  | 4 => some (some .debug)
  | 5 => some (some .trace)
  | _ => none

def levelNames : List (List Char × Option LogLevel) :=
  [("off".toList, none), ("error".toList, some .error), ("warn".toList, some .warn),
    ("info".toList, some .info), ("debug".toList, some .debug), ("trace".toList, some .trace)]

/-- A level by its name, in any case of letters, or by its number. -/
def level? (text : List Char) : Option (Option LogLevel) :=
  let digits := match text with
    | '+' :: rest => rest
    | text => text
  match Decimal.nat? digits with
  | some n => numbered? n
  | none => levelNames.lookup (text.map Char.toLower)

/-- The level behind an equals sign; without one everything passes. -/
def levelBehind? : List Char → Option (Option LogLevel)
  | [] => some (some .trace)
  | ['='] => some (some .trace)
  | '=' :: text => level? text
  | _ => none

def behindSpan? (chars : List Char) : Option (List Char) :=
  match chars.dropWhile fun c => c ≠ ']' ∧ c ≠ '\x7b' with
  | ']' :: rest => some rest
  | _ :: fields =>
      match fields.dropWhile (· ≠ '\x7d') with
      | _ :: ']' :: rest => if fields.head? = some '\x7d' then none else some rest
      | _ => none
  | [] => none

/-- Characters with which a target may begin; beyond ASCII all of them count as
letters. -/
def opensTarget (c : Char) : Bool :=
  c.isAlphanum || c = '-' || c = ':' || c = '_' || 128 ≤ c.toNat

def parse? (text : List Char) : Option LogDirective :=
  let chars := Text.trimChars text
  let target := chars.takeWhile fun c => c ≠ '=' ∧ c ≠ '['
  if target.isEmpty ∧ chars.head? ≠ some '[' then none
  else if target.head?.any fun c => !opensTarget c then none
  else
    match chars.dropWhile fun c => c ≠ '=' ∧ c ≠ '[' with
    | [] =>
        match level? target with
        | some lightest => some { target := [], lightest }
        | none => some { target, lightest := some .trace }
    | '[' :: rest => do
        let rest ← behindSpan? rest
        let lightest ← levelBehind? rest
        return { target, lightest, aboutSpans := true }
    | rest => (levelBehind? rest).map fun lightest => { target, lightest }

def isAbout (directive : LogDirective) (target : List Char) : Bool :=
  !directive.aboutSpans && directive.target.isPrefixOf target

def passes (directive : LogDirective) (level : LogLevel) : Bool :=
  match directive.lightest with
  | none => false
  | some lightest => lightest.weight ≤ level.weight

end LogDirective

structure LogFilter where
  directives : List LogDirective
  deriving DecidableEq, Repr

namespace LogFilter

/-- A filter without directives lets errors pass. -/
def parse? (text : String) : Option LogFilter :=
  let parts := (Text.splitOn ',' text.toList).filter fun part => !part.isEmpty
  match parts.mapM LogDirective.parse? with
  | none => none
  | some [] => some ⟨[{ target := [], lightest := some .error }]⟩
  | some directives => some ⟨directives⟩

def ofLevel (level : LogLevel) : LogFilter :=
  ⟨[{ target := [], lightest := some level }]⟩

/-- The filter of log settings: the level's, if their own text is none. -/
def ofSettings (settings : LogSettings) : LogFilter :=
  (parse? settings.directive).getD (ofLevel settings.level)

def decisive? (filter : LogFilter) (target : List Char) : Option LogDirective :=
  filter.directives.foldl
    (fun best directive =>
      if !directive.isAbout target then best
      else
        match best with
        | none => some directive
        | some other =>
            if directive.target.length < other.target.length then best else some directive)
    none

def passes (filter : LogFilter) (target : String) (level : LogLevel) : Bool :=
  (filter.decisive? target.toList).any fun directive => directive.passes level

end LogFilter

end WebhookRelay
