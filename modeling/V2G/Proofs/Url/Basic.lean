import Mathlib.Data.List.TakeWhile
import V2G.Proofs.Outcome
import V2G.Proofs.Url.Host
import V2G.Url.Reader

/-!
# URLs read back

The reader for hosts in ASCII is lawful: the text of a URL that it has read is a text of the same
URL (`readAscii_text`). What makes it so is collected in `Normal`: no part holds a character that it
would have to escape or that would end it, and the path is resolved.
-/

namespace V2G.Url

/-! ### What is read is normal -/

/-- A segment of a path that is resolved. -/
def Segment (s : List Char) : Prop :=
  Plain inPath s ∧ (∀ c ∈ s, isSlash c = false) ∧ isDot s = false ∧ isDoubleDot s = false

structure Normal (u : Url) : Prop where
  scheme : ∃ port, defaultPort? u.scheme = some port ∧
    ∀ n ∈ u.portNumber, n < 65536 ∧ n ≠ port
  username : Plain inUserInfo u.username
  password : Plain inUserInfo u.password
  host : u.host.Normal
  path : u.path ≠ [] ∧ ∀ s ∈ u.path, Segment s
  query : ∀ q ∈ u.query, Plain inQuery q
  fragment : ∀ f ∈ u.fragment, Plain inFragment f

/-- One more digit of a port. -/
def portStep (n : Option Nat) (c : Char) : Except Fault (Option Nat) :=
  match hexDigit? c with
  | some d =>
    let value := 10 * n.getD 0 + d
    if d < 10 && value < 65536 then .ok (some value) else .error .badPort
  | none => .error .badPort

theorem readPort_eq (cs : List Char) : readPort cs = cs.foldlM portStep none := rfl

theorem portStep_eq_ok {n m : Option Nat} {c : Char} : portStep n c = .ok m ↔
    ∃ d, hexDigit? c = some d ∧ d < 10 ∧ 10 * n.getD 0 + d < 65536 ∧
      m = some (10 * n.getD 0 + d) := by
  unfold portStep
  cases hexDigit? c with
  | none => simp
  | some d =>
    by_cases ok : d < 10 ∧ 10 * n.getD 0 + d < 65536
    · simp [ok.1, ok.2, eq_comm]
    · simp only [Bool.and_eq_true, decide_eq_true_eq, ok, ↓reduceIte, reduceCtorEq, false_iff,
        Option.some.injEq, exists_eq_left']
      exact fun h => ok ⟨h.1, h.2.1⟩

theorem port_lt {cs : List Char} {n : Nat} (h : readPort cs = .ok (some n)) : n < 65536 := by
  rw [readPort_eq] at h
  induction cs using List.reverseRecOn generalizing n with
  | nil => cases h
  | append_singleton cs c ih =>
    rw [List.foldlM_append] at h
    obtain ⟨before, -, h⟩ := Except.bind_eq_ok.mp h
    rw [List.foldlM_cons] at h
    obtain ⟨after, step, h⟩ := Except.bind_eq_ok.mp h
    cases h
    obtain ⟨d, -, -, small, e⟩ := portStep_eq_ok.mp step
    cases e
    exact small

theorem readPort_toDigits {n : Nat} (h : n < 65536) :
    readPort (Nat.toDigits 10 n) = .ok (some n) := by
  have digit {before : Option Nat} {d : Nat} (hd : d < 10)
      (small : 10 * before.getD 0 + d < 65536) :
      [d.digitChar].foldlM portStep before = .ok (some (10 * before.getD 0 + d)) := by
    have step := portStep_eq_ok.mpr ⟨d, hexDigit?_digitChar (by omega), hd, small, rfl⟩
    rw [List.foldlM_cons, step]
    rfl
  rw [readPort_eq]
  induction n using Nat.strongRecOn with
  | _ n ih =>
    rw [Nat.toDigits_eq_if (by decide)]
    split
    · next small =>
      rw [digit small (by simpa using h)]
      simp
    · next large =>
      have small : 10 * (some (n / 10)).getD 0 + n % 10 < 65536 := by
        rw [Option.getD_some, Nat.div_add_mod]
        exact h
      have rest := ih (n / 10) (by omega) (by omega)
      rw [List.foldlM_append, rest]
      refine (digit (Nat.mod_lt _ (by decide)) small).trans ?_
      rw [Option.getD_some, Nat.div_add_mod]

/-! ### Paths -/

theorem segment_nil : Segment [] := ⟨nofun, nofun, by decide, by decide⟩

theorem mem_of_leave {path : List (List Char)} {s : List Char} (h : s ∈ leave path) : s ∈ path := by
  unfold leave at h
  split at h
  · split at h
    · exact h
    · exact (List.dropLast_sublist path).subset h
  · cases h

theorem segments_resolve {path rest : List (List Char)} (hp : ∀ s ∈ path, Segment s)
    (hr : ∀ s ∈ rest, Plain inPath s ∧ ∀ c ∈ s, isSlash c = false) (full : path ++ rest ≠ []) :
    resolve path rest ≠ [] ∧ ∀ s ∈ resolve path rest, Segment s := by
  induction rest generalizing path with
  | nil => exact ⟨by simpa [resolve] using full, hp⟩
  | cons s rest ih =>
    have hrest := fun t ht => hr t (List.mem_cons_of_mem _ ht)
    obtain ⟨plain, slashes⟩ := hr s List.mem_cons_self
    have before : ∀ t ∈ (if isDoubleDot s then leave path
        else if isDot s then path else path ++ [s]), Segment t := by
      intro t ht
      split at ht
      · exact hp t (mem_of_leave ht)
      · next double =>
        split at ht
        · exact hp t ht
        · next single =>
          rcases List.mem_append.mp ht with ht | ht
          · exact hp t ht
          · rw [List.mem_singleton.mp ht]
            exact ⟨plain, slashes, Bool.eq_false_iff.mpr single, Bool.eq_false_iff.mpr double⟩
    simp only [resolve]
    split
    · refine ⟨by simp, fun t ht => ?_⟩
      rcases List.mem_append.mp ht with ht | ht
      · exact before t ht
      · exact List.mem_singleton.mp ht ▸ segment_nil
    · next more =>
      refine ih before hrest ?_
      cases rest with
      | cons t rest => simp
      | nil =>
        simp only [List.isEmpty_nil, Bool.true_and, Bool.or_eq_true, not_or] at more
        simp [more.1, more.2]

theorem segments_resolve_escape (cs : List Char) :
    resolve [] ((splitAt isSlash cs).map (escape inPath)) ≠ [] ∧
      ∀ s ∈ resolve [] ((splitAt isSlash cs).map (escape inPath)), Segment s := by
  have slash : ∀ c ∈ escapeChars, (!isSlash c) = true := List.all_eq_true.mp (by decide)
  refine segments_resolve nofun (List.forall_mem_map.mpr fun s hs => ?_) ?_
  · refine ⟨plain_escape mild_path s, fun c hc => ?_⟩
    rcases mem_escape hc with hc | ⟨hc, -⟩
    · simpa using slash c hc
    · exact (splitAt_mem hs c hc).2
  · simpa using splitAt_ne_nil isSlash _

theorem segments_readPath (cs : List Char) : readPath cs ≠ [] ∧ ∀ s ∈ readPath cs, Segment s :=
  segments_resolve_escape _

/-- What is resolved is resolved to itself. -/
theorem resolve_of_segments {path rest : List (List Char)} (h : ∀ s ∈ rest, Segment s) :
    resolve path rest = path ++ rest := by
  induction rest generalizing path with
  | nil => simp [resolve]
  | cons s rest ih =>
    obtain ⟨-, -, single, double⟩ := h s List.mem_cons_self
    have tail : resolve (path ++ [s]) rest = path ++ [s] ++ rest :=
      ih fun t ht => h t (List.mem_cons_of_mem _ ht)
    simp [resolve, single, double, tail]

theorem readPath_text {path : List (List Char)} (full : path ≠ []) (h : ∀ s ∈ path, Segment s) :
    readPath (path.flatMap ('/' :: ·)) = path := by
  cases path with
  | nil => exact absurd rfl full
  | cons s path =>
    have parts : splitAt isSlash (s ++ path.flatMap ('/' :: ·)) = s :: path :=
      splitAt_flatMap rfl fun t ht => (h t ht).2.1
    have plain : (s :: path).map (escape inPath) = s :: path :=
      (List.map_congr_left fun t ht => escape_of_plain (h t ht).1).trans (List.map_id _)
    simp only [readPath, List.flatMap_cons, List.cons_append, show isSlash '/' = true from rfl,
      ↓reduceIte, parts, plain]
    rw [resolve_of_segments h, List.nil_append]

/-! ### What is read -/

theorem normal_of_readNetwork {scheme cs : List Char} {port : Nat} {u : Url}
    (hs : defaultPort? scheme = some port) (h : readNetwork scheme port cs = .ok u) : u.Normal := by
  simp only [readNetwork] at h
  split at h
  · cases h
  · obtain ⟨host, read, h⟩ := Except.bind_eq_ok.mp h
    obtain ⟨portNumber, number, h⟩ := Except.bind_eq_ok.mp h
    cases h
    refine ⟨⟨port, hs, fun n hn => ?_⟩, plain_escape mild_userInfo _, plain_escape mild_userInfo _,
      Host.normal_of_read read, segments_readPath _, fun q hq => ?_, fun f hf => ?_⟩
    · obtain ⟨rfl, other⟩ := Option.filter_eq_some_iff.mp hn
      exact ⟨port_lt number, by simpa using other⟩
    · obtain ⟨q, -, rfl⟩ := Option.map_eq_some_iff.mp hq
      exact plain_escape mild_query q
    · obtain ⟨f, -, rfl⟩ := Option.map_eq_some_iff.mp hf
      exact plain_escape mild_fragment f

theorem normal_of_readAscii {s : String} {u : Url} (h : readAscii s = .ok (some u)) :
    u.Normal := by
  unfold readAscii at h
  split at h
  · cases h
  · split at h
    · cases h
    · split at h
      · next port hs =>
        obtain ⟨u', read, e⟩ := Except.map_eq_ok.mp h
        cases e
        exact normal_of_readNetwork hs read
      · obtain ⟨_, -, e⟩ := Except.map_eq_ok.mp h
        cases e

/-! ### The text of a URL -/

theorem takeWhile_part {p : Char → Bool} {cs rest : List Char} (h : ∀ c ∈ cs, p c = true)
    (stop : ∀ c ∈ rest.head?, p c = false) : (cs ++ rest).takeWhile p = cs := by
  rw [List.takeWhile_append_of_pos h]
  cases rest with
  | nil => simp
  | cons c rest => simp [stop c rfl]

theorem toNat_of_plain {more : List Char} {c : Char} (space : ' ' ∈ more)
    (h : mustEscape more c = false) : 0x20 < c.toNat := by
  have visible : 0x20 ≤ c.toNat := by
    simp only [mustEscape, Bool.or_eq_false_iff, decide_eq_false_iff_not, Nat.not_lt] at h
    exact h.1.1
  refine Nat.lt_of_le_of_ne visible fun e => ?_
  have : c = ' ' := by rw [← Char.ofNat_toNat c, ← e]
  simp [mustEscape, this, space] at h

/-- A character that a text may hold between the scheme and the path. -/
def isInner (c : Char) : Bool := 0x20 < c.toNat && !isSlash c && c != '?' && c != '#'

variable {u : Url}

def portText (u : Url) : List Char := (u.portNumber.map fun n => ':' :: Nat.toDigits 10 n).getD []
def queryText (u : Url) : List Char := (u.query.map ('?' :: ·)).getD []
def fragmentText (u : Url) : List Char := (u.fragment.map ('#' :: ·)).getD []
def pathText (u : Url) : List Char := u.path.flatMap ('/' :: ·)

theorem toList_text (u : Url) : u.text.toList = u.scheme ++ ':' :: '/' :: '/' ::
    (u.userInfo ++ u.host.text ++ u.portText ++ (u.pathText ++ u.queryText ++ u.fragmentText)) := by
  simp [text, portText, queryText, fragmentText, pathText]

/-- A host holds no character that ends it. -/
theorem host_chars {host : Host} (h : host.Normal) {c : Char} (hc : c ∈ host.text) :
    Host.isForbidden c = false ∨ c ∈ [':', '[', ']'] := by
  cases h with
  | domain _ lower => exact .inl (lower c hc).1
  | ipv4 => exact .inl (Host.ipv4Text_facts _ c hc).1
  | ipv6 count small =>
    obtain ⟨inner, text_eq, -, chars⟩ := Host.ipv6?_pieces count small
    rw [Host.text, text_eq] at hc
    simp only [List.mem_cons, List.mem_append, List.not_mem_nil, or_false, List.cons_append] at hc
    rcases hc with rfl | hc | rfl
    · simp
    · exact (chars c hc).elim (fun e => .inr (by simp [e])) fun h => .inl h.2
    · simp

theorem at_not_mem_host {host : Host} (h : host.Normal) : '@' ∉ host.text := by
  intro hc
  rcases host_chars h hc with free | mem
  · cases free
  · simp at mem

theorem isInner_iff {c : Char} :
    isInner c = true ↔ 0x20 < c.toNat ∧ ∀ d ∈ ['/', '\\', '?', '#'], c ≠ d := by
  simp [isInner, isSlash, and_assoc]

theorem inner_of_host {host : Host} (h : host.Normal) {c : Char} (hc : c ∈ host.text) :
    isInner c = true := by
  rcases host_chars h hc with free | mem
  · have forbidden : ∀ d ∈ ['/', '\\', '?', '#'], Host.isForbidden d = true :=
      List.all_eq_true.mp (by decide)
    exact isInner_iff.mpr ⟨(Host.toNat_lt_of_not_forbidden free).1,
      fun d hd => Host.ne_of_not_forbidden (forbidden d hd) free⟩
  · simp only [List.mem_cons, List.not_mem_nil, or_false] at mem
    rcases mem with rfl | rfl | rfl <;> decide

theorem inner_of_userInfo {cs : List Char} (h : Plain inUserInfo cs) {c : Char} (hc : c ∈ cs) :
    isInner c = true := by
  have escaped : ∀ d ∈ ['/', '\\', '?', '#'], d ∈ inUserInfo := by
    simp [inUserInfo, inPath, inFragment]
  refine isInner_iff.mpr ⟨toNat_of_plain (by decide) (h c hc), fun d hd e => ?_⟩
  exact h.not_mem (escaped d hd) (e ▸ hc)

theorem userInfo_cases (u : Url) : (u.username = [] ∧ u.password = [] ∧ u.userInfo = []) ∨
    ∃ password, u.userInfo = u.username ++ password ++ ['@'] ∧
      (password = [] ∧ u.password = [] ∨ password = ':' :: u.password) := by
  unfold userInfo
  rcases hp : u.password with _ | ⟨c, cs⟩
  · rcases hn : u.username with _ | ⟨d, ds⟩
    · exact .inl ⟨rfl, rfl, rfl⟩
    · exact .inr ⟨[], rfl, .inl ⟨rfl, rfl⟩⟩
  · exact .inr ⟨':' :: c :: cs, by simp, .inr rfl⟩

theorem inner_authority (normal : u.Normal) :
    ∀ c ∈ u.userInfo ++ u.host.text ++ u.portText, isInner c = true := by
  have digit : ∀ d < 10, isInner (Nat.digitChar d) = true := by decide
  have name {c : Char} := inner_of_userInfo normal.username (c := c)
  have password {c : Char} := inner_of_userInfo normal.password (c := c)
  intro c hc
  simp only [List.mem_append] at hc
  rcases hc with (hc | hc) | hc
  · rcases userInfo_cases u with ⟨-, -, none⟩ | ⟨word, info, cases⟩
    · rw [none] at hc
      cases hc
    · simp only [info, List.mem_append, List.mem_singleton] at hc
      rcases hc with (hc | hc) | rfl
      · exact name hc
      · rcases cases with ⟨rfl, -⟩ | rfl
        · cases hc
        · rcases List.mem_cons.mp hc with rfl | hc
          · decide
          · exact password hc
      · decide
  · exact inner_of_host normal.host hc
  · unfold portText at hc
    cases hp : u.portNumber with
    | none => simp [hp] at hc
    | some n =>
      simp only [hp, Option.map_some, Option.getD_some, List.mem_cons] at hc
      rcases hc with rfl | hc
      · decide
      · obtain ⟨d, hd, rfl⟩ := Text.mem_toDigits (by decide) hc
        exact digit d hd

theorem host_full {host : Host} (h : host.Normal) : host.text ≠ [] := by
  intro empty
  have read := Host.read_text h
  rw [empty] at read
  cases read

/-! ### Reading the text of a URL -/

theorem cutUserInfo?_of_at {a b : List Char} (h : '@' ∉ b) :
    cutUserInfo? (a ++ '@' :: b) = some (a, b) := by
  have host : ((a ++ '@' :: b).reverse.takeWhile (· != '@')).reverse = b := by
    rw [List.reverse_append, List.reverse_cons, List.append_assoc, takeWhile_part,
      List.reverse_reverse]
    · intro c hc
      exact bne_iff_ne.mpr fun e => h (e ▸ List.mem_reverse.mp hc)
    · simp
  have longer : ¬ b.length = (a ++ '@' :: b).length := by
    rw [List.length_append, List.length_cons]
    omega
  have before : (a ++ '@' :: b).length - b.length - 1 = a.length := by
    rw [List.length_append, List.length_cons]
    omega
  simp only [cutUserInfo?, host, longer, before, ↓reduceIte, List.take_left]

theorem cutUserInfo?_of_not_mem {cs : List Char} (h : '@' ∉ cs) : cutUserInfo? cs = none := by
  have all : cs.reverse.takeWhile (· != '@') = cs.reverse := by
    refine List.takeWhile_eq_self_iff.mpr fun c hc => ?_
    exact bne_iff_ne.mpr fun e => h (e ▸ List.mem_reverse.mp hc)
  simp [cutUserInfo?, all]

theorem cutPort_append {cs : List Char} (h : ∀ c ∈ cs, c ≠ ':' ∧ c ≠ '[') (rest : List Char) :
    cutPort false (cs ++ rest) = (cs ++ (cutPort false rest).1, (cutPort false rest).2) := by
  induction cs with
  | nil => rfl
  | cons c cs ih =>
    obtain ⟨colon, bracket⟩ := h c List.mem_cons_self
    have tail := ih fun d hd => h d (List.mem_cons_of_mem _ hd)
    simp [cutPort, colon, bracket, tail]

theorem cutPort_inside {cs : List Char} (h : ∀ c ∈ cs, c ≠ ']') (rest : List Char) :
    cutPort true (cs ++ ']' :: rest) =
      (cs ++ ']' :: (cutPort false rest).1, (cutPort false rest).2) := by
  induction cs with
  | nil => simp [cutPort]
  | cons c cs ih =>
    have close := h c List.mem_cons_self
    have tail := ih fun d hd => h d (List.mem_cons_of_mem _ hd)
    have inside : (c != ']') = true := bne_iff_ne.mpr close
    simp [cutPort, inside, tail]

/-- A colon in a host does not start a port. -/
theorem cutPort_host {host : Host} (h : host.Normal) (rest : List Char) :
    cutPort false (host.text ++ rest) =
      (host.text ++ (cutPort false rest).1, (cutPort false rest).2) := by
  have plain {cs : List Char} (h : ∀ c ∈ cs, Host.isForbidden c = false) :
      ∀ c ∈ cs, c ≠ ':' ∧ c ≠ '[' := fun c hc =>
    ⟨Host.ne_of_not_forbidden (by decide) (h c hc), Host.ne_of_not_forbidden (by decide) (h c hc)⟩
  cases h with
  | domain _ lower => exact cutPort_append (plain fun c hc => (lower c hc).1) rest
  | @ipv4 address =>
    exact cutPort_append (plain fun c hc => (Host.ipv4Text_facts address c hc).1) rest
  | ipv6 count small =>
    obtain ⟨inner, text_eq, -, chars⟩ := Host.ipv6?_pieces count small
    have inside : ∀ c ∈ inner, c ≠ ']' := by
      intro c hc
      rcases chars c hc with rfl | ⟨close, -⟩
      · decide
      · exact close
    have close := cutPort_inside inside rest
    rw [Host.text, text_eq]
    simp [cutPort, close]

theorem cutPort_portText (u : Url) :
    cutPort false u.portText = ([], u.portNumber.map (Nat.toDigits 10)) := by
  unfold portText
  cases u.portNumber <;> rfl

theorem cutTail_text (normal : u.Normal) :
    cutTail (u.pathText ++ u.queryText ++ u.fragmentText) = (u.pathText, u.query, u.fragment) := by
  have segment {d : Char} (hd : d ∈ inPath) (other : d ≠ '/') :
      ∀ c ∈ u.pathText, (c != d) = true := by
    intro c hc
    obtain ⟨s, hs, hc⟩ := List.mem_flatMap.mp hc
    rw [bne_iff_ne]
    rintro rfl
    rcases List.mem_cons.mp hc with rfl | hc
    · exact other rfl
    · exact (normal.path.2 s hs).1.not_mem hd hc
  have query : ∀ c ∈ u.queryText, (c != '#') = true := by
    intro c hc
    cases hq : u.query with
    | none => simp [queryText, hq] at hc
    | some q =>
      simp only [queryText, hq, Option.map_some, Option.getD_some, List.mem_cons] at hc
      rcases hc with rfl | hc
      · decide
      · exact bne_iff_ne.mpr fun e => (normal.query q hq).not_mem (by decide) (e ▸ hc)
  have beforeFragment : (u.pathText ++ u.queryText ++ u.fragmentText).takeWhile (· != '#') =
      u.pathText ++ u.queryText := by
    refine takeWhile_part (fun c hc => ?_) ?_
    · rcases List.mem_append.mp hc with hc | hc
      · exact segment (by decide) (by decide) c hc
      · exact query c hc
    · unfold fragmentText
      cases u.fragment <;> simp
  have path : (u.pathText ++ u.queryText).takeWhile (· != '?') = u.pathText := by
    refine takeWhile_part (segment (by decide) (by decide)) ?_
    unfold queryText
    cases u.query <;> simp
  simp only [cutTail, beforeFragment, path, List.drop_left]
  unfold queryText fragmentText
  cases u.query <;> cases u.fragment <;> rfl

theorem at_not_mem_portText (u : Url) : '@' ∉ u.portText := by
  have digit : ∀ d < 10, Nat.digitChar d ≠ '@' := by decide
  unfold portText
  cases u.portNumber with
  | none => simp
  | some n =>
    rintro hc
    rcases List.mem_cons.mp hc with e | hc
    · cases e
    · obtain ⟨d, hd, e⟩ := Text.mem_toDigits (by decide) hc
      exact digit d hd e.symm

/-- What stands before the host is cut off, and into name and password. -/
theorem cutUserInfo?_authority (normal : u.Normal) :
    ∃ info, (cutUserInfo? (u.userInfo ++ u.host.text ++ u.portText)).getD
        ([], u.userInfo ++ u.host.text ++ u.portText) = (info, u.host.text ++ u.portText) ∧
      info.takeWhile (· != ':') = u.username ∧ info.drop (u.username.length + 1) = u.password := by
  have host : '@' ∉ u.host.text ++ u.portText := fun hc =>
    (List.mem_append.mp hc).elim (at_not_mem_host normal.host) (at_not_mem_portText u)
  rcases userInfo_cases u with ⟨name, word, none⟩ | ⟨password, info, cases⟩
  · refine ⟨[], ?_, by simp [name], by simp [word]⟩
    rw [none, List.nil_append, cutUserInfo?_of_not_mem host, Option.getD_none]
  · have colon : ∀ c ∈ u.username, (c != ':') = true := fun c hc =>
      bne_iff_ne.mpr fun e => normal.username.not_mem (by decide) (e ▸ hc)
    refine ⟨u.username ++ password, ?_, takeWhile_part colon ?_, ?_⟩
    · have parts : u.userInfo ++ u.host.text ++ u.portText =
          (u.username ++ password) ++ '@' :: (u.host.text ++ u.portText) := by
        simp [info]
      rw [parts, cutUserInfo?_of_at host, Option.getD_some]
    · rcases cases with ⟨rfl, -⟩ | rfl <;> simp
    · rcases cases with ⟨rfl, word⟩ | rfl
      · simp [word]
      · simp [List.drop_append]

theorem readNetwork_text (normal : u.Normal) {port : Nat}
    (hs : defaultPort? u.scheme = some port) :
    readNetwork u.scheme port (u.userInfo ++ u.host.text ++ u.portText ++
      (u.pathText ++ u.queryText ++ u.fragmentText)) = .ok u := by
  have authority : (u.userInfo ++ u.host.text ++ u.portText ++
      (u.pathText ++ u.queryText ++ u.fragmentText)).takeWhile
        (fun c => !isSlash c && c != '?' && c != '#') =
      u.userInfo ++ u.host.text ++ u.portText := by
    refine takeWhile_part (fun c hc => ?_) ?_
    · have inner := inner_authority normal c hc
      simp only [isInner, Bool.and_eq_true] at inner ⊢
      exact ⟨⟨inner.1.1.2, inner.1.2⟩, inner.2⟩
    · cases hp : u.path with
      | nil => exact absurd hp normal.path.1
      | cons s path => simp [pathText, hp, isSlash]
  obtain ⟨info, cut, name, word⟩ := cutUserInfo?_authority normal
  have full : u.host.text.isEmpty = false := by simpa using host_full normal.host
  have number : readPort ((u.portNumber.map (Nat.toDigits 10)).getD []) = .ok u.portNumber := by
    cases hp : u.portNumber with
    | none => rfl
    | some n =>
      obtain ⟨_, -, ports⟩ := normal.scheme
      exact readPort_toDigits (ports n hp).1
  have other : u.portNumber.filter (· != port) = u.portNumber := by
    obtain ⟨port', hs', ports⟩ := normal.scheme
    cases hs.symm.trans hs'
    cases hp : u.portNumber with
    | none => rfl
    | some n => simp [Option.filter, (ports n hp).2]
  have query : u.query.map (escape inQuery) = u.query := by
    cases hq : u.query with
    | none => rfl
    | some q => rw [Option.map_some, escape_of_plain (normal.query q hq)]
  have fragment : u.fragment.map (escape inFragment) = u.fragment := by
    cases hf : u.fragment with
    | none => rfl
    | some f => rw [Option.map_some, escape_of_plain (normal.fragment f hf)]
  have path : readPath u.pathText = u.path := readPath_text normal.path.1 normal.path.2
  simp only [readNetwork, authority, cut, List.drop_left, cutPort_host normal.host,
    cutPort_portText, List.append_nil, full, Bool.false_eq_true, ↓reduceIte,
    Host.read_text normal.host, number, cutTail_text normal, name, word, query, fragment, path,
    escape_of_plain normal.username, escape_of_plain normal.password]
  exact Except.bind_eq_ok.mpr ⟨_, rfl, Except.bind_eq_ok.mpr ⟨_, rfl, by rw [other]; rfl⟩⟩

theorem mem_schemes {scheme : List Char} {port : Nat} (h : defaultPort? scheme = some port) :
    scheme ∈ ["http".toList, "https".toList, "ws".toList, "wss".toList, "ftp".toList] := by
  simp only [defaultPort?, List.lookup_cons, List.lookup_nil] at h
  repeat'
    split at h
    · next e => simp [eq_of_beq e]
  cases h

theorem cutScheme?_text {scheme : List Char} {port : Nat} (h : defaultPort? scheme = some port)
    (rest : List Char) : cutScheme? (scheme ++ ':' :: rest) = some (scheme, rest) := by
  have all := mem_schemes h
  simp only [List.mem_cons, List.not_mem_nil, or_false] at all
  rcases all with rfl | rfl | rfl | rfl | rfl <;> rfl

theorem clean_of_visible {s : String} (h : ∀ c ∈ s.toList, 0x20 < c.toNat) :
    clean s = s.toList := by
  have outer {cs : List Char} (h : ∀ c ∈ cs, 0x20 < c.toNat) :
      cs.dropWhile (fun c => decide (c.toNat ≤ 0x20)) = cs := by
    cases cs with
    | nil => rfl
    | cons c cs =>
      have := h c List.mem_cons_self
      simp [Nat.not_le.mpr this]
  have kept : s.toList.filter (fun c => c != '\t' && c != '\n' && c != '\r') = s.toList := by
    refine List.filter_eq_self.mpr fun c hc => ?_
    have ne {d : Char} (hd : d.toNat ≤ 0x20) : (c != d) = true :=
      bne_iff_ne.mpr fun e => Nat.not_le.mpr (h c hc) (e ▸ hd)
    simp only [ne (d := '\t') (by decide), ne (d := '\n') (by decide), ne (d := '\r') (by decide),
      Bool.and_self]
  have reverse : ∀ c ∈ s.toList.reverse, 0x20 < c.toNat := fun c hc => h c (List.mem_reverse.mp hc)
  simp only [clean]
  rw [outer h, outer reverse, List.reverse_reverse, kept]

/-- No blank is in the text of a URL. -/
theorem visible_text (normal : u.Normal) : ∀ c ∈ u.text.toList, 0x20 < c.toNat := by
  have plain {more cs : List Char} (space : ' ' ∈ more) (h : Plain more cs) {c : Char}
      (hc : c ∈ cs) : 0x20 < c.toNat := toNat_of_plain space (h c hc)
  have scheme : ∀ c ∈ u.scheme, 0x20 < c.toNat := by
    obtain ⟨port, hs, -⟩ := normal.scheme
    have all : ∀ s ∈ ["http".toList, "https".toList, "ws".toList, "wss".toList, "ftp".toList],
        s.all (0x20 < ·.toNat) = true := List.all_eq_true.mp (by decide)
    simpa using all _ (mem_schemes hs)
  intro c hc
  rw [toList_text] at hc
  simp only [List.mem_append, List.mem_cons] at hc
  rcases hc with hc | rfl | rfl | rfl | hc | hc
  · exact scheme c hc
  · decide
  · decide
  · decide
  · exact (isInner_iff.mp (inner_authority normal c (by simpa [or_assoc] using hc))).1
  · rcases hc with (hc | hc) | hc
    · obtain ⟨s, hs, hc⟩ := List.mem_flatMap.mp hc
      rcases List.mem_cons.mp hc with rfl | hc
      · decide
      · exact plain (by decide) (normal.path.2 s hs).1 hc
    · cases hq : u.query with
      | none => simp [queryText, hq] at hc
      | some q =>
        simp only [queryText, hq, Option.map_some, Option.getD_some, List.mem_cons] at hc
        rcases hc with rfl | hc
        · decide
        · exact plain (by decide) (normal.query q hq) hc
    · cases hf : u.fragment with
      | none => simp [fragmentText, hf] at hc
      | some f =>
        simp only [fragmentText, hf, Option.map_some, Option.getD_some, List.mem_cons] at hc
        rcases hc with rfl | hc
        · decide
        · exact plain (by decide) (normal.fragment f hf) hc

/-- The text of a URL that was read is read as the same URL. -/
theorem readAscii_text {s : String} {u : Url} (h : readAscii s = .ok (some u)) :
    readAscii u.text = .ok (some u) := by
  have normal := normal_of_readAscii h
  obtain ⟨port, hs, -⟩ := normal.scheme
  have full : u.text.isEmpty = false := by
    refine Bool.eq_false_iff.mpr fun empty => ?_
    have text := toList_text u
    rw [String.isEmpty_iff.mp empty] at text
    simp at text
  have slashes : ('/' :: '/' :: (u.userInfo ++ u.host.text ++ u.portText ++
      (u.pathText ++ u.queryText ++ u.fragmentText))).dropWhile isSlash =
        u.userInfo ++ u.host.text ++ u.portText ++
          (u.pathText ++ u.queryText ++ u.fragmentText) := by
    have inner := inner_authority normal
    cases ha : u.userInfo ++ u.host.text ++ u.portText with
    | nil => simp [host_full normal.host] at ha
    | cons c rest =>
      have ne := (isInner_iff.mp (inner c (ha ▸ List.mem_cons_self))).2
      simp [isSlash, ne '/' (by decide), ne '\\' (by decide)]
  rw [readAscii, full, clean_of_visible (visible_text normal), toList_text, cutScheme?_text hs]
  simp only [Bool.false_eq_true, ↓reduceIte, hs, slashes, readNetwork_text normal hs]
  rfl

/-- The reader for hosts in ASCII, as a lawful one. -/
abbrev lawfulAscii : LawfulReader := @LawfulReader.mk ascii readAscii_text

end V2G.Url
