import CorpusFeed.XmlEvents

/-! What a stream of XML events says apart from how its character data is cut into
text, CDATA sections and references, and the handlers that read only that. -/

namespace CorpusFeed

def joinData (value : Text) : List XmlEvent → List XmlEvent
  | .text (.ok more) :: rest => .text (.ok (value ++ more)) :: rest
  | events => .text (.ok value) :: events

/-- Each run of character data as one text, without comments and empty texts. -/
def xmlContent : List XmlEvent → List XmlEvent
  | [] => []
  | event :: rest =>
    match event.characters with
    | some (.ok value) => if value.isEmpty then xmlContent rest else joinData value (xmlContent rest)
    | some (.error message) => .text (.error message) :: xmlContent rest
    | none =>
      match event with
      | .other => xmlContent rest
      | event => event :: xmlContent rest

/-- The same error, or results that agree. -/
inductive SameOutcome {ε α : Type*} (same : α → α → Prop) : Except ε α → Except ε α → Prop where
  | error (e : ε) : SameOutcome same (.error e) (.error e)
  | ok {a b : α} (h : same a b) : SameOutcome same (.ok a) (.ok b)

namespace SameOutcome

variable {ε α : Type*} {same : α → α → Prop} {x y z : Except ε α}

theorem symm (hsame : ∀ a b, same a b → same b a) (h : SameOutcome same x y) : SameOutcome same y x := by
  cases h with
  | error e => exact .error e
  | ok h => exact .ok (hsame _ _ h)

theorem trans (hsame : ∀ a b c, same a b → same b c → same a c) (h : SameOutcome same x y)
    (h' : SameOutcome same y z) : SameOutcome same x z := by
  cases h with
  | error e =>
    cases h' with
    | error e => exact .error e
  | ok h =>
    cases h' with
    | ok h' => exact .ok (hsame _ _ _ h h')

end SameOutcome

namespace XmlHandlers

variable {ε ρ : Type*}

/-- Up to what `same` looks at, reading a text is reading its parts one by one. -/
structure Additive (h : XmlHandlers ε ρ) (same : ρ → ρ → Prop) : Prop where
  equivalence : Equivalence same
  start : ∀ stack tag {r r'}, same r r' → SameOutcome same (h.start stack r tag) (h.start stack r' tag)
  empty : ∀ stack tag {r r'}, same r r' → SameOutcome same (h.empty stack r tag) (h.empty stack r' tag)
  close : ∀ stack {r r'}, same r r' → same (h.close stack r) (h.close stack r')
  text : ∀ stack value {r r'}, same r r' → same (h.text stack r value) (h.text stack r' value)
  text_append : ∀ stack r value more, same (h.text stack (h.text stack r value) more) (h.text stack r (value ++ more))
  text_nil : ∀ stack r, same (h.text stack r []) r

def SameState (same : ρ → ρ → Prop) (s s' : XmlState ρ) : Prop := s.stack = s'.stack ∧ same s.raw s'.raw

variable {h : XmlHandlers ε ρ} {same : ρ → ρ → Prop} {s s' : XmlState ρ} {events events' : List XmlEvent}

namespace Additive

theorem sameState_symm (hadd : h.Additive same) (s s' : XmlState ρ) (hs : SameState same s s') :
    SameState same s' s := ⟨hs.1.symm, hadd.equivalence.symm hs.2⟩

theorem sameState_trans (hadd : h.Additive same) (s s' s'' : XmlState ρ) (hs : SameState same s s')
    (hs' : SameState same s' s'') : SameState same s s'' :=
  ⟨hs.1.trans hs'.1, hadd.equivalence.trans hs.2 hs'.2⟩

theorem takeText (hadd : h.Additive same) (hs : SameState same s s') (value : Except Text Text) :
    SameOutcome (SameState same) (h.takeText s value) (h.takeText s' value) := by
  cases value with
  | error message => exact .error _
  | ok value =>
    apply SameOutcome.ok
    refine ⟨hs.1, ?_⟩
    show same (h.text s.stack s.raw value) (h.text s'.stack s'.raw value)
    rw [hs.1]
    exact hadd.text _ _ hs.2

theorem step (hadd : h.Additive same) (hs : SameState same s s') (event : XmlEvent) :
    SameOutcome (SameState same) (h.step s event) (h.step s' event) := by
  obtain ⟨stack, raw⟩ := s
  obtain ⟨stack', raw'⟩ := s'
  obtain ⟨hstack, hraw⟩ := hs
  have hstack : stack = stack' := hstack
  rw [hstack]
  have hstate : SameState same (⟨stack', raw⟩ : XmlState ρ) ⟨stack', raw'⟩ := ⟨rfl, hraw⟩
  cases event with
  | start tag =>
    have hstart := hadd.start stack' tag hraw
    simp only [XmlHandlers.step]
    revert hstart
    generalize h.start stack' raw tag = x
    generalize h.start stack' raw' tag = y
    intro hstart
    cases hstart with
    | error e => exact .error e
    | ok hab => exact .ok ⟨rfl, hab⟩
  | empty tag =>
    have hempty := hadd.empty stack' tag hraw
    simp only [XmlHandlers.step]
    revert hempty
    generalize h.empty stack' raw tag = x
    generalize h.empty stack' raw' tag = y
    intro hempty
    cases hempty with
    | error e => exact .error e
    | ok hab => exact .ok ⟨rfl, hab⟩
  | close => exact .ok ⟨rfl, hadd.close stack' hraw⟩
  | text value => exact hadd.takeText hstate value
  | cdata value => exact hadd.takeText hstate (.ok value)
  | generalRef reference => exact hadd.takeText hstate (resolveReference reference)
  | other => exact .ok hstate
  | error message => exact .error _

theorem run (hadd : h.Additive same) (hs : SameState same s s') (events : List XmlEvent) :
    SameOutcome (SameState same) (h.run s events) (h.run s' events) := by
  induction events generalizing s s' with
  | nil => exact .ok hs
  | cons event events ih =>
    have hstep := hadd.step hs event
    rw [run_cons, run_cons]
    revert hstep
    generalize h.step s event = x
    generalize h.step s' event = y
    intro hstep
    cases hstep with
    | error e => exact .error e
    | ok hab => exact ih hab

/-- A text that follows another one may as well have been read with it. -/
theorem run_joinData (hadd : h.Additive same) (value : Text) (events : List XmlEvent) :
    SameOutcome (SameState same) (h.run ⟨s.stack, h.text s.stack s.raw value⟩ events)
      (h.run s (joinData value events)) := by
  have hplain : SameOutcome (SameState same) (h.run ⟨s.stack, h.text s.stack s.raw value⟩ events)
      (h.run s (.text (.ok value) :: events)) := by
    rw [run_cons]
    exact hadd.run ⟨rfl, hadd.equivalence.refl _⟩ events
  cases events with
  | nil => exact hplain
  | cons event rest =>
    cases event with
    | text data =>
      cases data with
      | error message => exact hplain
      | ok more =>
        show SameOutcome (SameState same) _ (h.run s (.text (.ok (value ++ more)) :: rest))
        rw [run_cons, run_cons]
        have hjoined : SameState same (⟨s.stack, h.text s.stack (h.text s.stack s.raw value) more⟩ : XmlState ρ)
            ⟨s.stack, h.text s.stack s.raw (value ++ more)⟩ := ⟨rfl, hadd.text_append _ _ _ _⟩
        exact hadd.run hjoined rest
    | start tag => exact hplain
    | empty tag => exact hplain
    | close => exact hplain
    | cdata data => exact hplain
    | generalRef reference => exact hplain
    | other => exact hplain
    | error message => exact hplain

theorem xmlContent_data {event : XmlEvent} {value : Text} (hdata : event.characters = some (.ok value)) :
    xmlContent (event :: events) =
      if value.isEmpty then xmlContent events else joinData value (xmlContent events) := by
  cases event with
  | other => cases hdata
  | _ => simp only [xmlContent, hdata]

theorem xmlContent_failed {event : XmlEvent} {message : Text} (hdata : event.characters = some (.error message)) :
    xmlContent (event :: events) = .text (.error message) :: xmlContent events := by
  cases event with
  | other => cases hdata
  | _ => simp only [xmlContent, hdata]

/-- Only the content of a stream is read. -/
theorem run_xmlContent (hadd : h.Additive same) (events : List XmlEvent) (s : XmlState ρ) :
    SameOutcome (SameState same) (h.run s events) (h.run s (xmlContent events)) := by
  induction events generalizing s with
  | nil => exact .ok ⟨rfl, hadd.equivalence.refl _⟩
  | cons event events ih =>
    have hmarkup : SameOutcome (SameState same) (h.run s (event :: events))
        (h.run s (event :: xmlContent events)) := by
      rw [run_cons, run_cons]
      cases h.step s event with
      | error e => exact .error e
      | ok next => exact ih next
    have hdata : ∀ value, event.characters = some value →
        SameOutcome (SameState same) (h.run s (event :: events)) (h.run s (xmlContent (event :: events))) := by
      intro value hcharacters
      have hstep := step_characters (h := h) (s := s) hcharacters
      cases value with
      | error message =>
        rw [xmlContent_failed hcharacters, run_cons, run_cons, hstep]
        exact .error _
      | ok value =>
        rw [xmlContent_data hcharacters, run_cons, hstep]
        by_cases hempty : value.isEmpty
        · rw [if_pos hempty]
          have hvalue : value = [] := by simpa using hempty
          have hskip : SameState same (⟨s.stack, h.text s.stack s.raw value⟩ : XmlState ρ) s := by
            rw [hvalue]
            exact ⟨rfl, hadd.text_nil _ _⟩
          exact (hadd.run hskip events).trans hadd.sameState_trans (ih s)
        · rw [if_neg hempty]
          exact (ih _).trans hadd.sameState_trans (hadd.run_joinData value _)
    cases event with
    | start tag => exact hmarkup
    | empty tag => exact hmarkup
    | close => exact hmarkup
    | error message => exact hmarkup
    | other =>
      rw [run_cons]
      exact ih s
    | text value => exact hdata value rfl
    | cdata value => exact hdata (.ok value) rfl
    | generalRef reference => exact hdata (resolveReference reference) rfl

theorem run_same_content (hadd : h.Additive same) (hcontent : xmlContent events = xmlContent events')
    (s : XmlState ρ) : SameOutcome (SameState same) (h.run s events) (h.run s events') := by
  have hright := (hadd.run_xmlContent events' s).symm hadd.sameState_symm
  rw [← hcontent] at hright
  exact (hadd.run_xmlContent events s).trans hadd.sameState_trans hright

end Additive

end XmlHandlers

end CorpusFeed
