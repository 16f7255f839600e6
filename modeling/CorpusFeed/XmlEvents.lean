import CorpusFeed.TextLines
import Mathlib.Data.List.Infix

/-! The events of a streaming XML reader, and the loop over them that the parsers
share: a stack of the open elements, and a record that each event changes. The
end of the list is the end of the input. -/

namespace CorpusFeed

/-- The iteration over attributes can fail, and so can the decoding of a value. -/
inductive XmlAttribute where
  | malformed (message : Text)
  | pair (key : Text) (value : Except Text Text)

/-- `checkedAttributes` is the iteration that also looks for duplicates. -/
structure XmlTag where
  name : Text
  attributes : List XmlAttribute
  checkedAttributes : List XmlAttribute

structure XmlReference where
  decoded : Except Text Text
  charRef : Except Text (Option Char)

/-- `other` is a comment, a processing instruction or a declaration. -/
inductive XmlEvent where
  | start (tag : XmlTag)
  | empty (tag : XmlTag)
  | close
  | text (value : Except Text Text)
  | cdata (value : Text)
  | generalRef (reference : XmlReference)
  | other
  | error (message : Text)

/-- The events of an element without attributes. -/
def XmlEvent.element (name : String) (inner : List XmlEvent) : List XmlEvent :=
  .start ⟨name.toList, [], []⟩ :: (inner ++ [.close])

def XmlEvent.plain (value : String) : XmlEvent := .text (.ok value.toList)

def resolveReference (reference : XmlReference) : Except Text Text :=
  match reference.decoded with
  | .error message => .error message
  | .ok name =>
    if name = "amp".toList then .ok ['&']
    else if name = "lt".toList then .ok ['<']
    else if name = "gt".toList then .ok ['>']
    else if name = "quot".toList then .ok ['"']
    else if name = "apos".toList then .ok ['\'']
    else
      match reference.charRef with
      | .error message => .error message
      | .ok (some character) => .ok [character]
      | .ok none => .error ("unsupported XML entity reference `".toList ++ name ++ ['`'])

/-- The character data of an event, for the events that have some. -/
def XmlEvent.characters : XmlEvent → Option (Except Text Text)
  | .text value => some value
  | .cdata value => some (.ok value)
  | .generalRef reference => some (resolveReference reference)
  | _ => none

def pathEndsWith (stack tail : List Text) : Bool := decide (tail <:+ stack)

def pathContains (stack needle : List Text) : Bool := decide (needle <:+: stack)

def bodyBlockTags : List Text :=
  ["p".toList, "P".toList, "br".toList, "BR".toList, "li".toList, "LI".toList, "div".toList, "DIV".toList,
    "blockquote".toList, "BLOCKQUOTE".toList, "tr".toList, "TR".toList, "td".toList, "TD".toList, "th".toList,
    "TH".toList, "table".toList, "TABLE".toList]

def isBodyBlockBoundary (name : Text) : Bool := decide (name ∈ bodyBlockTags)

def inBodyContext (stack : List Text) : Bool := pathContains stack ["BLOC_TEXTUEL".toList, "CONTENU".toList]

/-- What a parser does at each kind of event. The stack has the innermost element
last; a start tag is not on it yet, an end tag still is. -/
structure XmlHandlers (ε ρ : Type*) where
  localName : Text → Text
  xmlError : Text → ε
  start : List Text → ρ → XmlTag → Except ε ρ
  empty : List Text → ρ → XmlTag → Except ε ρ
  close : List Text → ρ → ρ
  text : List Text → ρ → Text → ρ

structure XmlState (ρ : Type*) where
  stack : List Text
  raw : ρ

namespace XmlHandlers

variable {ε ρ : Type*} (h : XmlHandlers ε ρ)

def takeText (s : XmlState ρ) : Except Text Text → Except ε (XmlState ρ)
  | .error message => .error (h.xmlError message)
  | .ok value => .ok ⟨s.stack, h.text s.stack s.raw value⟩

def step (s : XmlState ρ) : XmlEvent → Except ε (XmlState ρ)
  | .start tag =>
    match h.start s.stack s.raw tag with
    | .error e => .error e
    | .ok raw => .ok ⟨s.stack ++ [h.localName tag.name], raw⟩
  | .empty tag =>
    match h.empty s.stack s.raw tag with
    | .error e => .error e
    | .ok raw => .ok ⟨s.stack, raw⟩
  | .close => .ok ⟨s.stack.dropLast, h.close s.stack s.raw⟩
  | .text value => h.takeText s value
  | .cdata value => h.takeText s (.ok value)
  | .generalRef reference => h.takeText s (resolveReference reference)
  | .other => .ok s
  | .error message => .error (h.xmlError message)

def run (s : XmlState ρ) : List XmlEvent → Except ε (XmlState ρ)
  | [] => .ok s
  | event :: rest =>
    match h.step s event with
    | .error e => .error e
    | .ok s' => run s' rest

variable {h} {s s' : XmlState ρ} {event : XmlEvent} {events before after : List XmlEvent}

theorem step_characters {value : Except Text Text} (hvalue : event.characters = some value) :
    h.step s event = h.takeText s value := by
  cases event with
  | text v =>
    cases hvalue
    rfl
  | cdata v =>
    cases hvalue
    rfl
  | generalRef r =>
    cases hvalue
    rfl
  | start tag => cases hvalue
  | empty tag => cases hvalue
  | close => cases hvalue
  | other => cases hvalue
  | error message => cases hvalue

@[simp] theorem run_nil : h.run s [] = .ok s := rfl

theorem run_cons : h.run s (event :: events) = (h.step s event).bind fun s' => h.run s' events := by
  rw [run]
  cases h.step s event with
  | error e => rfl
  | ok s' => rfl

theorem run_cons_ok : h.run s (event :: events) = .ok s' ↔
    ∃ next, h.step s event = .ok next ∧ h.run next events = .ok s' := by
  rw [run_cons]
  cases h.step s event with
  | error e => simp [Except.bind]
  | ok next => simp [Except.bind]

theorem run_keeps {P : XmlState ρ → Prop} (hstep : ∀ s event s', P s → h.step s event = .ok s' → P s')
    (hs : P s) (hrun : h.run s events = .ok s') : P s' := by
  induction events generalizing s with
  | nil =>
    cases hrun
    exact hs
  | cons event events ih =>
    obtain ⟨next, hnext, hrest⟩ := run_cons_ok.mp hrun
    exact ih (hstep s event next hs hnext) hrest

end XmlHandlers

end CorpusFeed
