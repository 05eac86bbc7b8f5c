import V2G.Proofs.Wire.RoundTrip

/-!
# Elements that carry a URL

The elements that name an algorithm of a signature are a URL each. A URL is limited as it is
given and written in its normal form, which may be longer. So an element that was accepted is
accepted again, and is the same again, exactly if the normal form is within the limit too
(`parse_serialize_carrier`). A text at the limit that lacks the slash of the path is accepted only
once (`longQuery_refused`).
-/

namespace V2G

namespace Build

section

variable {reader : Url.Reader}

theorem read_url {v : Value} {u : String} (text : spelled? v = some (some u)) :
    read v (.one .url) = (urlOfText u).mapError Refusal.fault := by
  have scalar : readUrl v = urlOfText u := by
    cases v <;> simp_all [readUrl, spelled?, Value.text?]
  cases v with
  | dict => cases text
  | _ => exact congrArg (Except.mapError Refusal.fault) scalar

end

variable {reader : Url.LawfulReader}

/-- A normal form is refused for its length only. -/
theorem urlOfText_normal {t : String} (h : IsWebUrl t) :
    urlOfText t = if t.utf8ByteSize ≤ maxUrlBytes then .ok (.url t) else .error .longUrl := by
  split
  · next short => exact urlOfText_of_isWebUrl h short
  · next long => rw [urlOfText, if_pos (Nat.lt_of_not_le long)]

end Build

namespace Wire

/-- The elements that are a URL and nothing else. -/
inductive UrlCarrier : Element → Prop where
  | transform : UrlCarrier .transform
  | digestMethod : UrlCarrier .digestMethod
  | signatureMethod : UrlCarrier .signatureMethod
  | canonicalizationMethod : UrlCarrier .canonicalizationMethod

variable {e : Element} {u : String} {m : Value}

section

variable [reader : Url.Reader]

/-- The element was made of the text, by a program or from a document. -/
inductive Carries (e : Element) (u : String) (m : Value) : Prop where
  | built {v : Value} : Build.spelled? v = some (some u) → e.build [("algorithm", v)] = .ok m →
      Carries e u m
  | parsed {s : Settings} {limit : Option Nat} :
      (Codec.plain.parse s e (.obj [("algorithm", .str u)]) limit).outcome = .ok m → Carries e u m

/-! ### Making a carrier -/

variable {reader}

theorem build_carrier (he : UrlCarrier e) {v : Value} (text : Build.spelled? v = some (some u)) :
    e.build [("algorithm", v)] = match Build.urlOfText u with
      | .ok w => .ok (.element e [("algorithm", w)])
      | .error f => .error (.issues [⟨[.key "algorithm"], f⟩]) := by
  have single : e.build [("algorithm", v)] = (Refusal.gather
      [((Build.read v (.one .url)).map fun w => ("algorithm", w)).mapError
        (·.under (.key "algorithm"))]).bind fun fs =>
          Build.checkRules e (.element e (fs ++ [])) := by
    cases he <;> rfl
  rw [single, Build.read_url text]
  cases he <;> cases Build.urlOfText u <;> rfl

/-- No integer is in the document of a carrier. -/
theorem recordable_carrier (s : Settings) (limit : Option Nat) (t : String) :
    Recordable s limit (.obj [("algorithm", .str t)]) :=
  fun _ _ _ => rfl

theorem parse_carrier (he : UrlCarrier e) (s : Settings) (u : String) (limit : Option Nat) :
    (Codec.plain.parse s e (.obj [("algorithm", .str u)]) limit).outcome =
      match Build.urlOfText u with
      | .ok w => .ok (.element e [("algorithm", w)])
      | .error f => .error (.error (.malformed [.key "algorithm"] (.refused f))) := by
  have decoded : (Codec.plain.parse s e (.obj [("algorithm", .str u)]) limit).outcome =
      (e.build [("algorithm", .text u)]).mapError (ofRefusal e []) := by
    rw [Codec.outcome_parse_of_recordable (recordable_carrier s limit u)]
    cases he <;> rfl
  rw [decoded, build_carrier he (v := .text u) rfl]
  cases he <;> cases Build.urlOfText u <;> rfl

/-- A program and a document make the same of a text. -/
theorem carries_iff (he : UrlCarrier e) :
    Carries e u m ↔
      ∃ t, Build.urlOfText u = .ok (.url t) ∧ m = .element e [("algorithm", .url t)] := by
  constructor
  · intro made
    obtain ⟨w, read, rfl⟩ : ∃ w, Build.urlOfText u = .ok w ∧
        m = .element e [("algorithm", w)] := by
      cases made with
      | built text made =>
        rw [build_carrier he text] at made
        split at made <;> cases made
        exact ⟨_, ‹_›, rfl⟩
      | parsed made =>
        rw [parse_carrier he] at made
        split at made <;> cases made
        exact ⟨_, ‹_›, rfl⟩
    obtain ⟨t, rfl⟩ := Build.urlOfText_url read
    exact ⟨t, read, rfl⟩
  · rintro ⟨t, read, rfl⟩
    refine .built (v := .text u) rfl ?_
    rw [build_carrier he rfl, read]

end

/-! ### Sending it back -/

variable {reader : Url.LawfulReader}

/-- A carrier that was accepted is written as the normal form of its text, and that is accepted
and makes the same element, exactly if it is within the limit. Nothing else is wrong with it. -/
theorem parse_serialize_carrier (he : UrlCarrier e) (h : Carries e u m) (s s' : Settings)
    (limit : Option Nat) :
    ∃ t, Build.urlOfText u = .ok (.url t) ∧
      (Codec.plain.serialize s m limit).outcome = .ok (.obj [("algorithm", .str t)]) ∧
      (Codec.plain.parse s' e (.obj [("algorithm", .str t)]) limit).outcome =
        if t.utf8ByteSize ≤ Build.maxUrlBytes then .ok m
        else .error (.error (.malformed [.key "algorithm"] (.refused .longUrl))) := by
  obtain ⟨t, read, rfl⟩ := (carries_iff he).mp h
  have normal := Build.urlOfText_normal (Build.isWebUrl_of_urlOfText read)
  refine ⟨t, read, ?_, ?_⟩
  · refine Codec.outcome_serialize ?_ (recordable_carrier s limit t)
    cases he <;> rfl
  · rw [parse_carrier he, normal]
    by_cases short : t.utf8ByteSize ≤ Build.maxUrlBytes <;> simp only [short, ↓reduceIte]

end Wire

/-! ### A normal form that is longer than the text -/

namespace Url

theorem cutTail_query {q : List Char} (h : Plain inQuery q) :
    cutTail ('?' :: q) = ([], some q, none) := by
  have all : ('?' :: q).takeWhile (· != '#') = '?' :: q := by
    refine List.takeWhile_eq_self_iff.mpr fun c hc => ?_
    rcases List.mem_cons.mp hc with rfl | hc
    · rfl
    · exact bne_iff_ne.mpr fun same => h.not_mem (by decide) (same ▸ hc)
  simp [cutTail, all]

theorem readNetwork_query {q : List Char} (h : Plain inQuery q) :
    readNetwork "http".toList 80 ('a' :: '?' :: q) = .ok
      { scheme := "http".toList, username := [], password := [], host := .domain ['a'],
        portNumber := none, path := [[]], query := some q, fragment := none } := by
  have authority : ('a' :: '?' :: q).takeWhile (fun c => !isSlash c && c != '?' && c != '#') =
      ['a'] := rfl
  have host : Host.read ['a'] = .ok (.domain ['a']) :=
    Host.read_text (.domain (by decide) (List.forall_mem_singleton.mpr ⟨rfl, rfl⟩) rfl rfl)
  simp only [readNetwork, authority]
  refine Except.bind_eq_ok.mpr ⟨_, host, Except.bind_eq_ok.mpr ⟨none, rfl, ?_⟩⟩
  simp only [List.length_singleton, List.drop_one, List.tail_cons, cutTail_query h,
    Option.map_some, Option.map_none, escape_of_plain h]
  rfl

/-- A query right after the host is read as one after an empty path. -/
theorem urlOfText_query {q : String} (h : Plain inQuery q.toList)
    (short : ("http://a?" ++ q).utf8ByteSize ≤ Build.maxUrlBytes) :
    Build.urlOfText ("http://a?" ++ q) = .ok (.url ("http://a/?" ++ q)) := by
  have visible : ∀ c ∈ ("http://a?" ++ q).toList, 0x20 < c.toNat := by
    have before : "http://a?".toList.all (0x20 < ·.toNat) = true := by decide
    intro c hc
    rw [String.toList_append, List.mem_append] at hc
    rcases hc with hc | hc
    · simpa using List.all_eq_true.mp before c hc
    · exact toNat_of_plain (by decide) (h c hc)
  have scheme : cutScheme? ("http://a?" ++ q).toList =
      some ("http".toList, '/' :: '/' :: 'a' :: '?' :: q.toList) := by
    rw [String.toList_append]
    rfl
  have made : readAscii ("http://a?" ++ q) =
      (readNetwork "http".toList 80 ('a' :: '?' :: q.toList)).map some := by
    rw [readAscii, clean_of_visible visible, scheme]
    rfl
  rw [readNetwork_query h] at made
  refine Build.urlOfText_eq_ok.mpr ⟨_, short, made, rfl, congrArg Value.url ?_⟩
  refine String.toList_injective ?_
  simp [toList_text, userInfo, Host.text, portText, pathText, queryText, fragmentText]

end Url

namespace Wire

/-- A query of a length. -/
def filler (n : Nat) : String := String.ofList (List.replicate n 'x')

theorem filler_plain (n : Nat) : Url.Plain Url.inQuery (filler n).toList := by
  intro c hc
  rw [filler, String.toList_ofList] at hc
  rw [List.eq_of_mem_replicate hc]
  rfl

theorem filler_size (n : Nat) : (filler n).utf8ByteSize = n := by
  induction n with
  | zero => rfl
  | succ n ih =>
    rw [filler, List.replicate_succ, String.ofList_cons, ← filler, String.utf8ByteSize_append, ih,
      String.utf8ByteSize_singleton]
    exact Nat.add_comm 1 n

/-- At the limit, the slash of the path is one byte too many. -/
theorem longQuery_refused :
    ∃ m, Element.build .transform [("algorithm", .text ("http://a?" ++ filler 2074))] = .ok m ∧
      (Codec.plain.serialize {} m Json.digitLimit).outcome =
        .ok (.obj [("algorithm", .str ("http://a/?" ++ filler 2074))]) ∧
      (Codec.plain.parse {} .transform
          (.obj [("algorithm", .str ("http://a/?" ++ filler 2074))]) Json.digitLimit).outcome =
        .error (.error (.malformed [.key "algorithm"] (.refused .longUrl))) := by
  have given : ("http://a?" ++ filler 2074).utf8ByteSize = 2083 := by
    rw [String.utf8ByteSize_append, filler_size]
    rfl
  have normal : ("http://a/?" ++ filler 2074).utf8ByteSize = 2084 := by
    rw [String.utf8ByteSize_append, filler_size]
    rfl
  have read := Url.urlOfText_query (filler_plain 2074) given.le
  have built : Element.build .transform [("algorithm", .text ("http://a?" ++ filler 2074))] =
      .ok (.element .transform [("algorithm", .url ("http://a/?" ++ filler 2074))]) := by
    rw [build_carrier .transform (v := .text ("http://a?" ++ filler 2074)) rfl, read]
  obtain ⟨t, again, serialized, parsed⟩ :=
    @parse_serialize_carrier _ _ _ Url.lawfulAscii .transform (.built (v := .text _) rfl built)
      {} {} Json.digitLimit
  cases read.symm.trans again
  rw [normal, if_neg (by decide)] at parsed
  exact ⟨_, built, serialized, parsed⟩

end Wire

end V2G
