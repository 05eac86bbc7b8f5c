import V2G.Json.Reader
import V2G.Proofs.Json.Literal
import V2G.Proofs.Keyed

/-!
# JSON read back

What is written of a value is read as the value, if no floating-point number and no repeated key
stands in it and no integer has too many digits (`read_write`). The machine is followed along the
value: from where a value is expected it gets to where the value is complete, whatever is open
around it and whatever follows. All that is written is printable ASCII, so that its bytes are read
like its characters (`decode_write`).
-/

namespace V2G.Json

/-- Values that are read as they are written. -/
inductive Legible (limit : Option Nat) : Json → Prop where
  | null : Legible limit .null
  | bool (b : Bool) : Legible limit (.bool b)
  | int {n : Int} : (∀ most ∈ limit, (Nat.toDigits 10 n.natAbs).length ≤ most) →
      Legible limit (.int n)
  | str (s : String) : Legible limit (.str s)
  | arr {items : List Json} : (∀ v ∈ items, Legible limit v) → Legible limit (.arr items)
  | obj {members : List (String × Json)} : (Keyed.keys members).Nodup →
      (∀ k v, (k, v) ∈ members → Legible limit v) → Legible limit (.obj members)

variable {limit : Option Nat} {cs cs' rest : List Char} {s s' s'' : State} {stack : List Frame}

/-! ### Runs of the machine -/

/-- What comes of the rest of a text, read in a state. -/
def resume (limit : Option Nat) (pos : Nat) (cs : List Char) (s : State) : Except TextFault Json :=
  (State.run limit (tokens pos cs).1 s).bind (State.close (tokens pos cs).2)

/-- In `s`, the characters `cs` are read up to `rest`, which leads to `s'`, wherever they stand. -/
def Leads (limit : Option Nat) (cs : List Char) (s : State) (rest : List Char) (s' : State) : Prop :=
  ∀ pos, ∃ after, resume limit pos cs s = resume limit after rest s'

theorem Leads.trans (h : Leads limit cs s cs' s') (h' : Leads limit cs' s' rest s'') :
    Leads limit cs s rest s'' := by
  intro pos
  obtain ⟨middle, first⟩ := h pos
  obtain ⟨after, second⟩ := h' middle
  exact ⟨after, first.trans second⟩

theorem Leads.space : Leads limit (' ' :: cs) s cs s := by
  intro pos
  refine ⟨pos + 1, ?_⟩
  simp only [resume, tokens, show isSpace ' ' = true from rfl, ↓reduceIte]

/-- One step reads one token. -/
theorem Leads.token {t : Token} (h : Cuts cs rest t)
    (step : ∀ pos, s.step limit ⟨pos, t⟩ = .ok s') : Leads limit (cs ++ rest) s rest s' := by
  intro pos
  obtain ⟨c, more, rfl, space, cut⟩ := h
  obtain ⟨after, cut⟩ := cut pos
  refine ⟨after, ?_⟩
  rw [List.cons_append, resume, tokens, space]
  split
  · next e => cases e
  split
  next token after' left cut' =>
  cases cut.symm.trans cut'
  simp only [State.run, step]
  rfl

/-- A mark of one character is a token. -/
theorem Leads.mark {c : Char} {t : Token} (space : isSpace c = false)
    (cut : ∀ pos, next pos c rest = (t, pos + 1, rest))
    (step : ∀ pos, s.step limit ⟨pos, t⟩ = .ok s') : Leads limit (c :: rest) s rest s' :=
  have one : Cuts [c] rest t := ⟨c, [], rfl, space, fun pos => ⟨_, cut pos⟩⟩
  .token one step

/-! ### Values -/

/-- A value is expected, or the end of an array. -/
def Awaits (limit : Option Nat) (s : State) (stack : List Frame) : Prop :=
  ∀ t : Placed, t.token ≠ .closeBracket → s.step limit t = stepValue limit t stack

/-- A key is expected after the members there are. -/
def AwaitsKey (limit : Option Nat) (s : State) (before : List (String × Json))
    (stack : List Frame) : Prop :=
  ∀ pos key, s.step limit ⟨pos, .text key⟩ = .ok (.colon before key stack)

/-- What is written of the value is read as the value where one is expected. -/
def ReadsBack (limit : Option Nat) (v : Json) : Prop :=
  ∀ s stack rest, Awaits limit s stack → Stops rest →
    Leads limit (write v ++ rest) s rest (.complete v stack)

theorem awaits_value (stack : List Frame) : Awaits limit (.value stack) stack :=
  fun _ _ => rfl

theorem awaits_firstItem (stack : List Frame) :
    Awaits limit (.firstItem stack) (.item [] :: stack) := by
  intro t other
  rw [State.step]
  split
  · next close => exact absurd close other
  · rfl

theorem readsBack_token {v : Json} (t : Token) (close : t ≠ .closeBracket)
    (cut : ∀ rest, Stops rest → Cuts (write v) rest t)
    (step : ∀ pos stack, stepValue limit ⟨pos, t⟩ stack = .ok (.complete v stack)) :
    ReadsBack limit v := by
  intro s stack rest awaits stops
  exact .token (cut rest stops) fun pos => (awaits _ close).trans (step pos stack)

theorem readsBack_int {n : Int} (h : ∀ most ∈ limit, (Nat.toDigits 10 n.natAbs).length ≤ most) :
    ReadsBack limit (.int n) := by
  refine readsBack_token (.integer _ n) nofun (fun _ => cuts_int n) fun pos stack => ?_
  have within : limit.filter (· < (Nat.toDigits 10 n.natAbs).length) = none := by
    rw [Option.filter_eq_none_iff]
    intro most hm
    simpa using h most hm
  simp only [stepValue, stepInteger, within]

theorem leads_items {items : List Json} (h : ∀ v ∈ items, ReadsBack limit v) (full : items ≠ [])
    {before : List Json} (awaits : Awaits limit s (.item before :: stack)) (rest : List Char) :
    Leads limit (writeItems items ++ ']' :: rest) s (']' :: rest)
      (.afterItem (items.reverse ++ before) stack) := by
  induction items generalizing s before with
  | nil => exact absurd rfl full
  | cons v items ih =>
    have first := h v List.mem_cons_self
    cases items with
    | nil => exact first s _ _ awaits (.cons (by decide))
    | cons w items =>
      rw [writeItems, List.append_assoc, List.reverse_cons, List.append_assoc]
      refine (first s _ _ awaits (.cons (by decide))).trans ?_
      refine (Leads.mark rfl (fun _ => rfl) fun _ => rfl).trans (Leads.space.trans ?_)
      exact ih (fun x hx => h x (List.mem_cons_of_mem _ hx)) (List.cons_ne_nil _ _)
        (awaits_value _)

theorem put_of_not_mem {before : List (String × Json)} {k : String} (v : Json)
    (h : k ∉ Keyed.keys before) : Keyed.put before k v = before ++ [(k, v)] := by
  induction before with
  | nil => rfl
  | cons m before ih =>
    simp only [Keyed.keys, List.map_cons, List.mem_cons, not_or] at h
    rw [Keyed.put, if_neg (Ne.symm h.1), ih h.2]
    rfl

theorem leads_members {members : List (String × Json)}
    (h : ∀ k v, (k, v) ∈ members → ReadsBack limit v) (full : members ≠ [])
    {before : List (String × Json)} (nodup : (Keyed.keys (before ++ members)).Nodup)
    (awaits : AwaitsKey limit s before stack) (rest : List Char) :
    Leads limit (writeMembers members ++ '}' :: rest) s ('}' :: rest)
      (.afterMember (before ++ members) stack) := by
  induction members generalizing s before with
  | nil => exact absurd rfl full
  | cons m members ih =>
    obtain ⟨k, v⟩ := m
    have fresh : k ∉ Keyed.keys before := by
      rw [Keyed.keys_append, List.nodup_append] at nodup
      intro mem
      exact nodup.2.2 k mem k List.mem_cons_self rfl
    -- One member takes the machine from its key to behind its value.
    have first (more : List Char) (stops : Stops more) :
        Leads limit (writeText k ++ (':' :: ' ' :: (write v ++ more))) s more
          (.afterMember (before ++ [(k, v)]) stack) := by
      refine (Leads.token (cuts_text k _) fun pos => awaits pos k).trans ?_
      refine (Leads.mark rfl (fun _ => rfl) fun _ => rfl).trans (Leads.space.trans ?_)
      rw [← put_of_not_mem v fresh]
      exact h k v List.mem_cons_self _ (.member before k :: stack) more (awaits_value _) stops
    cases members with
    | nil =>
      rw [writeMembers, List.append_assoc, List.cons_append, List.cons_append]
      exact first _ (.cons (by decide))
    | cons m members =>
      rw [writeMembers, List.append_assoc, List.cons_append, List.cons_append, List.append_assoc]
      refine (first _ (.cons (by decide))).trans ?_
      refine (Leads.mark rfl (fun _ => rfl) fun _ => rfl).trans (Leads.space.trans ?_)
      have same : before ++ (k, v) :: m :: members = (before ++ [(k, v)]) ++ m :: members := by simp
      rw [same] at nodup ⊢
      exact ih (fun k' v' hv => h k' v' (List.mem_cons_of_mem _ hv)) (List.cons_ne_nil _ _) nodup
        fun _ _ => rfl

theorem readsBack_arr {items : List Json} (h : ∀ v ∈ items, ReadsBack limit v) :
    ReadsBack limit (.arr items) := by
  intro s stack rest awaits stops
  rw [write, List.cons_append, List.append_assoc]
  have opened : Leads limit ('[' :: (writeItems items ++ ([']'] ++ rest))) s _ (.firstItem stack) :=
    .mark rfl (fun _ => rfl) fun _ => awaits _ nofun
  refine opened.trans ?_
  cases items with
  | nil => exact .mark rfl (fun _ => rfl) fun _ => rfl
  | cons v items =>
    refine (leads_items h (List.cons_ne_nil _ _) (awaits_firstItem stack) rest).trans ?_
    refine .mark rfl (fun _ => rfl) fun _ => ?_
    rw [List.append_nil, State.step, List.reverse_reverse]

theorem readsBack_obj {members : List (String × Json)} (nodup : (Keyed.keys members).Nodup)
    (h : ∀ k v, (k, v) ∈ members → ReadsBack limit v) : ReadsBack limit (.obj members) := by
  intro s stack rest awaits stops
  rw [write, List.cons_append, List.append_assoc]
  have opened : Leads limit ('{' :: (writeMembers members ++ (['}'] ++ rest))) s _
      (.firstKey stack) :=
    .mark rfl (fun _ => rfl) fun _ => awaits _ nofun
  refine opened.trans ?_
  cases members with
  | nil => exact .mark rfl (fun _ => rfl) fun _ => rfl
  | cons m members =>
    have awaits : AwaitsKey limit (.firstKey stack) [] stack := fun _ _ => rfl
    refine (leads_members h (List.cons_ne_nil _ _) nodup awaits rest).trans ?_
    exact .mark rfl (fun _ => rfl) fun _ => rfl

theorem Legible.readsBack {v : Json} (h : Legible limit v) : ReadsBack limit v := by
  induction h with
  | null =>
    exact readsBack_token (.scalar .null) nofun (fun rest _ => cuts_word rest (by simp [write]))
      fun _ _ => rfl
  | bool b =>
    refine readsBack_token (.scalar (.bool b)) nofun (fun rest _ => cuts_word rest ?_)
      fun _ _ => rfl
    cases b <;> simp [write]
  | int h => exact readsBack_int h
  | str s => exact readsBack_token (.text s) nofun (fun rest _ => cuts_text s rest) fun _ _ => rfl
  | arr _ ih => exact readsBack_arr ih
  | obj nodup _ ih => exact readsBack_obj nodup ih

theorem readBody_write {v : Json} (h : Legible limit v) : readBody (write v) limit = .ok v := by
  obtain ⟨after, run⟩ := h.readsBack (.value []) [] [] (awaits_value _) nofun 0
  rw [List.append_nil] at run
  refine Eq.trans run ?_
  rw [resume, tokens]
  rfl

/-! ### Texts -/

/-- A printable ASCII character. -/
abbrev Visible (c : Char) : Prop := 0x20 ≤ c.toNat ∧ c.toNat < 0x7f

theorem visible_of_all {cs : List Char} (h : cs.all (fun c => Visible c) = true) {c : Char}
    (hc : c ∈ cs) : Visible c := by
  simpa using List.all_eq_true.mp h c hc

theorem visible_toDigits {b n : Nat} (hb : 1 < b) (small : b ≤ 16) {c : Char}
    (h : c ∈ Nat.toDigits b n) : Visible c := by
  have digit : ∀ d < 16, 0x20 ≤ (Nat.digitChar d).toNat ∧ (Nat.digitChar d).toNat < 0x7f := by
    decide
  obtain ⟨d, hd, rfl⟩ := Text.mem_toDigits hb h
  exact digit d (Nat.lt_of_lt_of_le hd small)

theorem visible_unit {n : Nat} {c : Char} (h : c ∈ '\\' :: 'u' :: Text.hex 4 n) : Visible c := by
  simp only [Text.hex, List.mem_cons, List.mem_append, List.mem_replicate] at h
  rcases h with rfl | rfl | ⟨-, rfl⟩ | h
  · decide
  · decide
  · decide
  · exact visible_toDigits (by decide) (by decide) h

theorem visible_writeChar (c : Char) {d : Char} (h : d ∈ writeChar c) : Visible d := by
  unfold writeChar at h
  split at h
  · next special =>
    rw [Bool.or_eq_true, decide_eq_true_eq, decide_eq_true_eq] at special
    rcases special with rfl | rfl <;> exact visible_of_all rfl h
  iterate 5
    split at h
    · exact visible_of_all rfl h
  split at h
  · next visible =>
    obtain rfl := List.mem_singleton.mp h
    simpa [Visible] using visible
  split at h
  · exact visible_unit h
  · dsimp only at h
    rw [← List.cons_append, ← List.cons_append, List.mem_append] at h
    exact h.elim visible_unit visible_unit

theorem visible_writeText (s : String) {c : Char} (h : c ∈ writeText s) : Visible c := by
  simp only [writeText, List.mem_cons, List.mem_append, List.mem_flatMap, List.not_mem_nil,
    or_false] at h
  rcases h with rfl | ⟨d, -, h⟩ | rfl
  · decide
  · exact visible_writeChar d h
  · decide

theorem mem_writeItems {items : List Json} {c : Char} (h : c ∈ writeItems items) :
    c = ',' ∨ c = ' ' ∨ ∃ v ∈ items, c ∈ write v := by
  induction items with
  | nil => cases h
  | cons v items ih =>
    cases items with
    | nil => exact .inr (.inr ⟨v, List.mem_cons_self, h⟩)
    | cons w items =>
      simp only [writeItems, List.mem_append, List.mem_cons] at h
      rcases h with h | h | h | h
      · exact .inr (.inr ⟨v, List.mem_cons_self, h⟩)
      · exact .inl h
      · exact .inr (.inl h)
      · exact (ih h).imp id (.imp id fun ⟨x, hx, hc⟩ => ⟨x, List.mem_cons_of_mem _ hx, hc⟩)

theorem mem_writeMembers {members : List (String × Json)} {c : Char}
    (h : c ∈ writeMembers members) : c = ',' ∨ c = ':' ∨ c = ' ' ∨
      ∃ k v, (k, v) ∈ members ∧ (c ∈ writeText k ∨ c ∈ write v) := by
  induction members with
  | nil => cases h
  | cons m members ih =>
    obtain ⟨k, v⟩ := m
    have own (hc : c ∈ writeText k ∨ c ∈ write v) :
        ∃ k' v', (k', v') ∈ (k, v) :: members ∧ (c ∈ writeText k' ∨ c ∈ write v') :=
      ⟨k, v, List.mem_cons_self, hc⟩
    cases members with
    | nil =>
      simp only [writeMembers, List.mem_append, List.mem_cons] at h
      rcases h with h | h | h | h
      · exact .inr (.inr (.inr (own (.inl h))))
      · exact .inr (.inl h)
      · exact .inr (.inr (.inl h))
      · exact .inr (.inr (.inr (own (.inr h))))
    | cons m members =>
      simp only [writeMembers, List.mem_append, List.mem_cons] at h
      rcases h with h | h | h | h | h | h | h
      · exact .inr (.inr (.inr (own (.inl h))))
      · exact .inr (.inl h)
      · exact .inr (.inr (.inl h))
      · exact .inr (.inr (.inr (own (.inr h))))
      · exact .inl h
      · exact .inr (.inr (.inl h))
      · exact (ih h).imp id (.imp id (.imp id fun ⟨k', v', hv, hc⟩ =>
          ⟨k', v', List.mem_cons_of_mem _ hv, hc⟩))

theorem visible_write {v : Json} (h : Legible limit v) : ∀ c ∈ write v, Visible c := by
  induction h with
  | null => exact fun c => visible_of_all rfl
  | bool b => cases b <;> exact fun c => visible_of_all rfl
  | @int n _ =>
    intro c hc
    rw [write, writeInt] at hc
    split at hc
    · rcases List.mem_cons.mp hc with rfl | hc
      · decide
      · exact visible_toDigits (by decide) (by decide) hc
    · exact visible_toDigits (by decide) (by decide) hc
  | str s => exact fun c => visible_writeText s
  | arr _ ih =>
    intro c hc
    simp only [write, List.mem_cons, List.mem_append, List.not_mem_nil, or_false] at hc
    rcases hc with rfl | hc | rfl
    · decide
    · rcases mem_writeItems hc with rfl | rfl | ⟨v, hv, hc⟩
      · decide
      · decide
      · exact ih v hv c hc
    · decide
  | obj _ _ ih =>
    intro c hc
    simp only [write, List.mem_cons, List.mem_append, List.not_mem_nil, or_false] at hc
    rcases hc with rfl | hc | rfl
    · decide
    · rcases mem_writeMembers hc with rfl | rfl | rfl | ⟨k, v, hv, hc | hc⟩
      · decide
      · decide
      · decide
      · exact visible_writeText k hc
      · exact ih k v hv c hc
    · decide

theorem write_ne_nil {v : Json} (h : Legible limit v) : write v ≠ [] := by
  intro empty
  have body := readBody_write h
  rw [empty, readBody, tokens] at body
  cases body

/-- No byte order mark is in front of what is written, so that it is read as a text too. -/
theorem read_write {v : Json} (h : Legible limit v) : read (write v) limit = .ok v := by
  have body := readBody_write h
  have visible := visible_write h
  unfold read
  split
  · next text => exact absurd (visible '\ufeff' (text ▸ List.mem_cons_self)) (by decide)
  · exact body

theorem decode_write {v : Json} (h : Legible limit v) :
    Text.decode (Text.utf8Bytes v.text) = .ok (write v) := by
  have ascii : ∀ c ∈ write v, 0 < c.toNat ∧ c.toNat < 0x80 := by
    intro c hc
    obtain ⟨low, high⟩ := visible_write h c hc
    omega
  rw [text, Text.utf8Bytes_ascii fun c hc => (ascii c hc).2]
  obtain ⟨c, cs, front⟩ := List.exists_cons_of_ne_nil (write_ne_nil h)
  rw [front] at ascii ⊢
  exact Text.decode_ascii ascii

end V2G.Json
