import V2G.Exchange.Answer
import V2G.Proofs.Build.Mapping
import V2G.Proofs.Wire.Decode

/-!
# Whatever a program can obtain

Values that a program comes by: plain data, tokens, identifiers and URLs, collections and
selections of what it has, parts of what it has, and the elements that are built, parsed,
correlated or answered with, in any order and any number of steps. Where an element is wanted, it is
given as itself or as a dictionary. Another mapping is as good as the element that it makes, and
that is obtained from a dictionary too, unless the selection in it, which is not checked
(`Element.ofMapping`), is none that the choice group takes (`Obtainable.mapped`). An element is
never looked at again once it is made, so that it conforms is an invariant of each way to make one.
-/

namespace V2G

section

variable [reader : Url.Reader]

/-- Values that a program can obtain, if it builds elements from allowed arguments only. -/
inductive Obtainable (allowed : Element → Keyed Value → Prop) : Value → Prop where
  | none : Obtainable allowed .none
  | bool (b : Bool) : Obtainable allowed (.bool b)
  | int (n : Int) : Obtainable allowed (.int n)
  | float (x : Double) : Obtainable allowed (.float x)
  | text (s : String) : Obtainable allowed (.text s)
  | bytes (data : List UInt8) : Obtainable allowed (.bytes data)
  | token {t : TokenType} {s : String} : s ∈ t.tokens → Obtainable allowed (.token t s)
  | identifier {t : IdentifierType} {v w : Value} : Obtainable allowed v → t.read v = .ok w →
      Obtainable allowed w
  | url {s : String} {v : Value} : Build.urlOfText s = .ok v → Obtainable allowed v
  | tuple {xs : List Value} : (∀ x ∈ xs, Obtainable allowed x) → Obtainable allowed (.tuple xs)
  | list {xs : List Value} : (∀ x ∈ xs, Obtainable allowed x) → Obtainable allowed (.list xs)
  | dict {es : List (String × Value)} : (∀ k x, (k, x) ∈ es → Obtainable allowed x) →
      Obtainable allowed (.dict es)
  | choice {m : String} {v : Value} : Obtainable allowed v → Obtainable allowed (.choice m v)
  | part {v w : Value} : Obtainable allowed w → v.Part w → Obtainable allowed v
  | built {e : Element} {args : Keyed Value} {v : Value} : allowed e args →
      (∀ k x, (k, x) ∈ args → Obtainable allowed x) → e.build args = .ok v → Obtainable allowed v
  | parsed {s : Settings} {e : Element} {j : Json} {v : Value} :
      (Codec.plain.parse s e j).outcome = .ok v → Obtainable allowed v
  | correlated {response request v : Value} : Obtainable allowed response →
      Obtainable allowed request → Exchange.correlate response request = .ok v →
      Obtainable allowed v
  | answered {e : Element} {request v : Value} {args : Keyed Value} : Obtainable allowed request →
      allowed e args → (∀ k x, (k, x) ∈ args → Obtainable allowed x) →
      Exchange.answering e request args = .ok v → Obtainable allowed v

/-! ### Binding changes nothing -/

namespace Exchange

variable {reader}

theorem correlate_eq_ok {response request v : Value} (h : correlate response request = .ok v) :
    v = response := by
  unfold correlate at h
  split at h
  · split at h
    · cases h
    · split at h
      · unfold unanswered at h
        obtain ⟨_, -, h⟩ := Except.bind_eq_ok.mp h
        cases h
      · split at h <;> cases h
        rfl
  · cases h

theorem answering_eq_ok {e : Element} {request v : Value} {args : Keyed Value}
    (h : answering e request args = .ok v) : e.build args = .ok v := by
  unfold answering at h
  split at h
  · cases h
  · split at h
    · cases h
    · split at h
      · unfold unanswered at h
        obtain ⟨_, -, h⟩ := Except.bind_eq_ok.mp (Except.mapError_eq_ok.mp h)
        cases h
      · split at h
        · cases h
        · next built =>
          rw [built, correlate_eq_ok (Except.mapError_eq_ok.mp h)]

end Exchange

end

namespace Obtainable

variable {allowed : Element → Keyed Value → Prop} {v : Value}

/-! ### The other ways to parse -/

section

variable {reader : Url.Reader}

theorem of_parse {s : Settings} {e : Element} {j : Json} {limit : Option Nat}
    (h : (Codec.plain.parse s e j limit).outcome = .ok v) : Obtainable allowed v :=
  .parsed (Codec.parse_eq_ok_iff.mp h).1

theorem of_parseNamed {s : Settings} {j : Json} {limit : Option Nat}
    (h : (Codec.plain.parseNamed s j limit).outcome = .ok v) : Obtainable allowed v := by
  unfold Codec.parseNamed at h
  split at h
  · split at h
    · exact of_parse h
    · cases h
  · cases h

theorem of_parseResponse {s : Settings} {request : Value} {j : Json} {limit : Option Nat}
    (h : (Codec.plain.parseResponse s request j limit).outcome = .ok v) :
    Obtainable allowed v := by
  obtain ⟨e, -, h⟩ := Traced.outcome_bind_eq_ok.mp h
  obtain ⟨response, parsed, h⟩ := Traced.outcome_bind_eq_ok.mp h
  split at h
  · cases h
  · exact Exchange.correlate_eq_ok h ▸ of_parse parsed

theorem of_parseReading {s : Settings} {e : Element} {read : Except String Json}
    {limit : Option Nat} (h : (Codec.plain.parseReading s e read limit).outcome = .ok v) :
    Obtainable allowed v := by
  cases read with
  | ok j => exact of_parse h
  | error reason => cases h

theorem of_fromText {s : Settings} {e : Element} {text : List Char} {limit : Option Nat}
    (h : (Codec.plain.fromText s e text limit).outcome = .ok v) : Obtainable allowed v :=
  of_parseReading h

theorem of_fromBytes {s : Settings} {e : Element} {bytes : List UInt8} {limit : Option Nat}
    (h : (Codec.plain.fromBytes s e bytes limit).outcome = .ok v) : Obtainable allowed v :=
  of_parseReading h

/-! ### Mappings -/

/-- What a mapping makes can be obtained from a dictionary, if the selection in it is one that the
choice group takes. -/
theorem mapped {e : Element} {es : List (String × Value)}
    (args : ∀ k x, (k, x) ∈ es → Obtainable (fun _ _ => True) x) (made : e.ofMapping es = .ok v)
    (yields : ∀ c, e.choice = some c → Build.Yields c.group (v.field c.name)) :
    Obtainable (fun _ _ => True) v := by
  obtain ⟨fs, rfl, mapped⟩ := Build.mapped_of_ofMapping made
  refine .built trivial (fun k x hx => ?_) (Build.build_asDictionary mapped yields)
  rcases Build.mem_asDictionary hx with ⟨y, hy, rfl⟩ | ⟨c, hc, rfl, rfl⟩
  · unfold Build.undropped
    split
    · have fieldless : Element.build .eimAuthReqParams [] =
          .ok (.element .eimAuthReqParams []) := rfl
      exact .built trivial (fun _ _ h => absurd h List.not_mem_nil) fieldless
    · exact args k y hy
  · have chooses := mapped.choice c hc
    cases given : Keyed.get? es c.name with
    | none =>
      rw [given] at chooses
      exact chooses.2 ▸ .none
    | some y =>
      rw [given] at chooses
      rcases c.part_of_read chooses with ⟨none, -⟩ | ⟨m, w, value, part⟩
      · exact none ▸ .none
      · exact value ▸ .choice (.part (args c.name y (Keyed.mem_of_get? given)) part)

/-! ### The invariant -/

/-- The elements, tokens and URLs in whatever is obtained are as they should be. -/
theorem sound (h : Obtainable allowed v) : Sound v := by
  induction h with
  | none | bool | int | float | text | bytes => exact .of_children nofun nofun nofun nofun
  | token h => exact .of_children nofun (fun _ _ e => by cases e; exact h) nofun nofun
  | identifier _ h ih =>
    obtain ⟨_, -, -, -, rfl⟩ := IdentifierType.read_eq_ok.mp h
    exact .of_children nofun nofun nofun nofun
  | url h =>
    obtain ⟨t, rfl⟩ := Build.urlOfText_url h
    have web := Build.isWebUrl_of_urlOfText h
    exact .of_children nofun nofun (fun _ e => by cases e; exact web) nofun
  | tuple _ ih =>
    exact .of_children (fun x c => by cases c with | tuple hx => exact ih x hx) nofun nofun nofun
  | list _ ih =>
    exact .of_children (fun x c => by cases c with | list hx => exact ih x hx) nofun nofun nofun
  | dict _ ih =>
    exact .of_children (fun x c => by cases c with | dict hx => exact ih _ x hx) nofun nofun nofun
  | choice _ ih =>
    exact .of_children (fun x c => by cases c with | choice => exact ih) nofun nofun nofun
  | part _ hp ih => exact ih.part hp
  | built _ _ h ih => exact (Build.conforms_of_build ih h).sound
  | parsed h =>
    obtain ⟨valid, rfl⟩ := Wire.parse_eq_ok.mp h
    exact (Wire.conforms_denote valid nofun).sound
  | correlated _ _ h ih => exact Exchange.correlate_eq_ok h ▸ ih
  | answered _ _ _ h _ ih => exact (Build.conforms_of_build ih (Exchange.answering_eq_ok h)).sound

/-- No optional collection is ever obtained empty if collections are given as tuples or lists. -/
theorem dense (listed : ∀ e args, allowed e args → Build.Listed (.dict args) (.one (.element e)))
    (h : Obtainable allowed v) : Dense v := by
  induction h with
  | none | bool | int | float | text | bytes | token => exact .of_children nofun nofun
  | identifier _ h ih =>
    obtain ⟨_, -, -, -, rfl⟩ := IdentifierType.read_eq_ok.mp h
    exact .of_children nofun nofun
  | url h =>
    obtain ⟨t, rfl⟩ := Build.urlOfText_url h
    exact .of_children nofun nofun
  | tuple _ ih => exact .of_children (fun x c => by cases c with | tuple hx => exact ih x hx) nofun
  | list _ ih => exact .of_children (fun x c => by cases c with | list hx => exact ih x hx) nofun
  | dict _ ih => exact .of_children (fun x c => by cases c with | dict hx => exact ih _ x hx) nofun
  | choice _ ih => exact ih.choice
  | part _ hp ih => exact ih.part hp
  | built ok args h ih =>
    exact Build.dense_of_build (fun k x hx => (args k x hx).sound) ih (listed _ _ ok) h
  | parsed h =>
    obtain ⟨-, rfl⟩ := Wire.parse_eq_ok.mp h
    exact Wire.dense_denote _ _
  | correlated _ _ h ih => exact Exchange.correlate_eq_ok h ▸ ih
  | answered _ ok args h _ ih =>
    exact Build.dense_of_build (fun k x hx => (args k x hx).sound) ih (listed _ _ ok)
      (Exchange.answering_eq_ok h)

/-- Whatever element is obtained conforms to its declaration, and so do all elements in it. No
optional collection is empty if none is given as anything but a tuple or a list. -/
theorem element_conforms {e : Element} {fs : List (String × Value)}
    (h : Obtainable allowed (.element e fs)) :
    Conforms (.one (.element e)) (.element e fs) ∧
      ((∀ e args, allowed e args → Build.Listed (.dict args) (.one (.element e))) →
        Dense (.element e fs)) :=
  ⟨h.sound.element e fs .self, h.dense⟩

def fiveArguments : Keyed Value := [("value", .int 5), ("exponent", .int 0)]

def five : List (String × Value) := [("exponent", .int 0), ("value", .int 5)]

theorem int_of_five {k : String} {x : Value} (h : (k, x) ∈ fiveArguments) : ∃ n, x = .int n := by
  simp only [fiveArguments, List.mem_cons, Prod.mk.injEq, List.not_mem_nil, or_false] at h
  rcases h with ⟨-, rfl⟩ | ⟨-, rfl⟩ <;> exact ⟨_, rfl⟩

theorem shape_of_stands_int {w : Value} {t s : Shape} {n : Int}
    (h : Build.Stands w t (.int n) s) : t = s := by
  cases h with
  | self => rfl
  | item hx => cases hx

end

theorem listed_five : Build.Listed (.dict fiveArguments) (.one (.element .rationalNumber)) := by
  have single : ∀ f ∈ Element.fields .rationalNumber, f.shape.isCollection = false := by
    decide
  intro w t stands collection
  cases stands with
  | self => cases collection
  | item hx => cases hx
  | field hx hf _ stands =>
    obtain ⟨n, rfl⟩ := int_of_five hx
    rw [shape_of_stands_int stands, single _ hf] at collection
    cases collection
  | member _ hm => cases hm
  | selected hc => cases hc

theorem five_conforms : Conforms (.one (.element .rationalNumber)) (.element .rationalNumber five) ∧
    Dense (.element .rationalNumber five) := by
  have args : ∀ k x, (k, x) ∈ fiveArguments → Obtainable
      (fun e args => e = .rationalNumber ∧ args = fiveArguments) x := by
    intro k x hx
    obtain ⟨n, rfl⟩ := int_of_five hx
    exact .int n
  have conforms := element_conforms (.built (e := .rationalNumber) ⟨rfl, rfl⟩ args rfl : Obtainable
    (fun e args => e = .rationalNumber ∧ args = fiveArguments) (.element .rationalNumber five))
  refine ⟨conforms.1, conforms.2 ?_⟩
  rintro _ _ ⟨rfl, rfl⟩
  exact listed_five

end Obtainable

end V2G
