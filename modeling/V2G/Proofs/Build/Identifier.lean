import V2G.Build.Single
import V2G.Proofs.Build.Conform
import V2G.Proofs.Build.Lookup

/-!
# The text of an identifier

What is measured of an argument for an identifier is its text, and what is kept is the text that
it is shown as. For plain texts and identifiers that is the same. A token is shown with its symbol
and the name of its type, which is never its text (`tokenSymbol_ne`), so that an identifier made
from a token holds a text that nothing was asked of (`read_textual`).
-/

namespace V2G

/-- A text that a program can hold: a plain one, an identifier, or a token of its type. -/
inductive Textual : Value → String → Prop where
  | text (s : String) : Textual (.text s) s
  | identifier (t : IdentifierType) (s : String) : Textual (.identifier t s) s
  | token {t : TokenType} {s : String} : s ∈ t.tokens → Textual (.token t s) s

namespace IdentifierType

variable {P : IdentifierType} {v w : Value} {s : String}

/-- The texts that an identifier of the type may hold. -/
def Admits (P : IdentifierType) (s : String) : Prop :=
  P.least ≤ s.length ∧ s.length ≤ P.most ∧
    (P = .sessionId → ∀ c ∈ s.toList, isHexDigit c = true)

theorem allows_iff {cs : List Char} : (∀ c ∈ cs, P.allows c = true) ↔
    (P = .sessionId → ∀ c ∈ cs, isHexDigit c = true) := by
  cases P <;> simp [allows]

theorem admits_iff : P.Admits s ↔
    Within P.least (some P.most) s.length ∧ ∀ c ∈ s.toList, P.allows c = true := by
  simp [Admits, Within, allows_iff, and_assoc]

/-! ### Texts and how they are shown -/

/-- What joins the name of a type and a symbol is in no token. -/
theorem no_dot : ∀ t ∈ TokenType.all, ∀ s ∈ t.tokens, '.' ∉ s.toList := by
  decide +kernel

theorem tokenSymbol_ne {t : TokenType} (h : s ∈ t.tokens) : Value.tokenSymbol t s ≠ s := by
  have dot : '.' ∈ (Value.tokenSymbol t s).toList := by simp [Value.tokenSymbol]
  intro same
  exact no_dot t (by cases t <;> decide) s h (same ▸ dot)

theorem text?_of_textual (h : Textual v s) : v.text? = some s := by
  cases h <;> rfl

section

variable {reader : Url.Reader}

theorem sound_of_textual (h : Textual v s) : Sound v := by
  cases h with
  | token declared => exact .of_children nofun (fun _ _ e => by cases e; exact declared) nofun nofun
  | _ => exact .of_children nofun nofun nofun nofun

theorem shown_eq_iff (h : Textual v s) : v.shown = s ↔ v.isToken = false := by
  cases h with
  | token declared => simp [Value.shown, Value.isToken, tokenSymbol_ne declared]
  | _ => simp [Value.shown, Value.isToken]

theorem equal_shown (h : Textual v s) :
    (Value.identifier P v.shown).equal .plain v = !v.isToken := by
  have compared : (Value.identifier P v.shown).equal .plain v = (some s == some v.shown) := by
    rw [← text?_of_textual h]
    rfl
  rw [compared, Bool.eq_iff_iff, Bool.not_eq_true', ← shown_eq_iff h, beq_iff_eq,
    Option.some.injEq]
  exact eq_comm

/-! ### Reading -/

theorem read_ok_iff (h : Textual v s) : P.read v = .ok w ↔
    P.Admits s ∧ w = .identifier P v.shown := by
  rw [read_eq_ok, admits_iff, text?_of_textual h]
  simp [and_assoc]

/-- The text that an identifier holds makes the same identifier. -/
theorem read_shown (h : Textual v s) (made : P.read v = .ok w) :
    P.read (.text v.shown) = .ok w := by
  obtain ⟨-, rfl⟩ := (read_ok_iff h).mp made
  -- No identifier is a URL, so that any reader of URLs will do.
  obtain ⟨-, holds⟩ := @holds_of_read Url.ascii _ _ _ (sound_of_textual h) made
  exact (read_ok_iff (.text _)).mpr ⟨admits_iff.mpr holds, rfl⟩

theorem tryRead_eq_ok : P.tryRead v = .ok w ↔ P.read v = .ok w := Except.mapError_eq_ok

theorem tryRead_eq_error {error : MessageError} (h : P.tryRead v = .error error) :
    error.field = P.name ∧
      ∃ f, P.read v = .error f ∧ error = .malformed [.key P.name] (.identifier f) := by
  obtain ⟨f, refused, rfl⟩ := Except.mapError_eq_error.mp h
  exact ⟨by cases P <;> rfl, f, refused, rfl⟩

/-! ### Fields -/

theorem read_field_eq_ok : Build.read v (.one (.identifier P)) = .ok w ↔ P.read v = .ok w := by
  have scalar : Build.read v (.one (.identifier P)) =
      ((P.read v).mapError Fault.identifier).mapError Refusal.fault := by
    cases v <;> rfl
  rw [scalar, Except.mapError_eq_ok, Except.mapError_eq_ok]

theorem same_identifier_iff {a b : String} :
    (Value.identifier P a).same (.identifier P b) = true ↔ a = b := by
  change (some b == some a) = true ↔ a = b
  rw [beq_iff_eq, Option.some.injEq, eq_comm]

/-- A collection holds what each of its items stands for. -/
theorem mem_of_read {c : Shape} (collection : c.isCollection = true)
    (kind : c.kind = .identifier P) {xs : List Value} (items : v.items? = some xs)
    (read : Build.read v c = .ok w) {x : Value} (hx : x ∈ xs) :
    ∃ ws y, w = .tuple ws ∧ y ∈ ws ∧ P.read x = .ok y := by
  cases c with
  | one k => cases collection
  | list k least most =>
    cases kind
    obtain ⟨ys, all, -, -, rfl⟩ := (Build.read_items_list items).mp read
    obtain ⟨y, hy, value⟩ := ok_of_mem all hx
    exact ⟨ys, y, rfl, hy, read_field_eq_ok.mp value⟩
  | set k least most =>
    cases kind
    obtain ⟨ys, all, -, -, rfl⟩ := (Build.read_items_set items).mp read
    obtain ⟨y, hy, value⟩ := ok_of_mem all hx
    have identifier : ∀ z ∈ ys, ∃ a, z = .identifier P a := by
      intro z hz
      obtain ⟨_, -, made⟩ := mem_of_ok all hz
      obtain ⟨_, -, -, -, rfl⟩ := read_eq_ok.mp (read_field_eq_ok.mp made)
      exact ⟨_, rfl⟩
    have self : ∀ z ∈ ys, z.equal .structural z = true := by
      intro z hz
      obtain ⟨a, rfl⟩ := identifier z hz
      exact same_identifier_iff.mpr rfl
    -- The entry that is kept for an item is the item, as equal identifiers are the same.
    obtain ⟨z, hz, same⟩ := Value.exists_mem_distinct self hy
    obtain ⟨a, rfl⟩ := identifier y hy
    obtain ⟨b, rfl⟩ := identifier z (Value.mem_of_mem_distinct hz)
    obtain rfl := same_identifier_iff.mp same
    exact ⟨_, _, rfl, hz, read_field_eq_ok.mp value⟩

section Built

variable {e : Element} {f : Field} {es : Keyed Value} {k : String} {x m : Value}

theorem single_of_built (hf : f ∈ e.fields) (single : f.shape = .one (.identifier P))
    (h : Textual v s) (given : Build.fieldArg? es f = some (k, v)) (built : e.build es = .ok m) :
    P.read v = .ok (m.field f.name) := by
  have there : ¬ Build.leavesAbsent f v = true := by
    cases h <;> simp [Build.leavesAbsent, single, Shape.isCollection, Value.isNone]
  have read := Build.read_of_built hf given there built
  rw [single] at read
  exact read_field_eq_ok.mp read

theorem mem_of_built (hf : f ∈ e.fields) (collection : f.shape.isCollection = true)
    (kind : f.shape.kind = .identifier P) (given : Build.fieldArg? es f = some (k, x))
    {xs : List Value} (items : x.items? = some xs) (hv : v ∈ xs) (built : e.build es = .ok m) :
    ∃ ws w, m.field f.name = .tuple ws ∧ w ∈ ws ∧ P.read v = .ok w := by
  have there : ¬ Build.leavesAbsent f x = true := by
    have full := List.ne_nil_of_mem hv
    cases x <;> cases items <;>
      simp [Build.leavesAbsent, Value.isNone, Value.isEmptyCollection, full]
  exact mem_of_read collection kind items (Build.read_of_built hf given there built) hv

end Built

/-! ### Main statement -/

/-- An identifier is made of a text of the right length and characters. It holds the text that the
argument is shown as, which makes the same identifier again; it is equal to the argument, and holds
the argument's text, exactly if the argument is no token. The fields of an element hold the same,
one by itself or one for each item. -/
theorem read_textual (h : Textual v s) :
    ((∃ w, P.read v = .ok w) ↔ P.Admits s) ∧
      (∀ w, P.read v = .ok w → w = .identifier P v.shown ∧ P.read (.text v.shown) = .ok w ∧
        (w.text? = some s ↔ v.isToken = false) ∧ w.equal .plain v = !v.isToken) ∧
      (∀ w, P.tryRead v = .ok w ↔ P.read v = .ok w) ∧
      (∀ error, P.tryRead v = .error error → error.field = P.name ∧
        ∃ f, P.read v = .error f ∧ error = .malformed [.key P.name] (.identifier f)) ∧
      ∀ e f es k x m, f ∈ Element.fields e → Build.fieldArg? es f = some (k, x) →
        e.build es = .ok m →
          (f.shape = .one (.identifier P) → x = v → P.read v = .ok (m.field f.name)) ∧
          ∀ xs, f.shape.isCollection = true → f.shape.kind = .identifier P →
            x.items? = some xs → v ∈ xs →
              ∃ ws w, m.field f.name = .tuple ws ∧ w ∈ ws ∧ P.read v = .ok w := by
  refine ⟨?_, fun w made => ?_, fun w => tryRead_eq_ok, fun error => tryRead_eq_error,
    fun e f es k x m hf given built => ⟨?_, fun xs collection kind items hv => ?_⟩⟩
  · simp [read_ok_iff h]
  · have again := read_shown h made
    obtain ⟨-, rfl⟩ := (read_ok_iff h).mp made
    refine ⟨rfl, again, ?_, equal_shown h⟩
    rw [← shown_eq_iff h]
    simp [Value.text?]
  · rintro single rfl
    exact single_of_built hf single h given built
  · exact mem_of_built hf collection kind given items hv built

end

/-- A request that is given a token for its identifier. -/
def tokenArguments : Keyed Value :=
  [("header", .dict [("session_id", .text "AB"), ("timestamp", .int 1)]),
    ("evcc_id", .token .authService "EIM")]

/-- What is measured is `EIM`, and what is kept is not. -/
theorem symbol_kept : ∃ w m, IdentifierType.evccId.read (.token .authService "EIM") = .ok w ∧
    IdentifierType.evccId.tryRead (.token .authService "EIM") = .ok w ∧
    Element.build .sessionSetupReq tokenArguments = .ok m ∧ m.field "evcc_id" = w ∧
    w = .identifier .evccId "AuthEnum.EIM" ∧
    w.text? ≠ some "EIM" ∧ w.equal .plain (.token .authService "EIM") = false := by
  have eim : Textual (.token .authService "EIM") "EIM" := .token (by decide)
  have field : Field.mandatory "evcc_id" "evccId" (.identifier .evccId) ∈
      Element.fields .sessionSetupReq := by decide
  obtain ⟨m, built⟩ : ∃ m, Element.build .sessionSetupReq tokenArguments = .ok m := ⟨_, rfl⟩
  obtain ⟨accepted, kept, tried, -, held⟩ := read_textual (P := .evccId) eim
  obtain ⟨w, made⟩ := accepted.mpr ⟨by decide, by decide, nofun⟩
  have stored := (held _ _ _ _ _ _ field rfl built).1 rfl rfl
  cases made.symm.trans stored
  obtain ⟨value, -, text, equal⟩ := kept _ made
  refine ⟨_, m, made, (tried _).mpr made, built, rfl, value, ?_, equal⟩
  rw [ne_eq, text]
  decide

end IdentifierType

end V2G
