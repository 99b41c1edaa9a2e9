import BServer.Base.JsonText
import BServer.Task.ServicePackage

/-!
# `Task.PastedJson` — JSON that is put together by hand

Where `service_package_responser` builds the body of a public service request it goes through a `Json::Value` and
a writer, which escapes. Two texts are pasted together instead: the condition of `find_by_city`, around the city
of the client, and the report of a failed call of the interpreter, around the message of the exception. Each is
the text it is meant to be exactly if the pasted bytes are `Verbatim`: UTF-8 without a quotation mark, a
backslash or a control character. From the report only the line breaks are removed, and a traceback quotes the
name of every file it mentions.
-/

namespace BServer

open Bytes JsonText

/-! ## The condition of a city query -/

/-- The condition asks for this city, and for nothing else: it is a JSON text for the object with one member,
    `city`, which is the string received. -/
def QueriesCity (condition city : Bytes) : Prop :=
  ∃ text s, utf8 text = condition ∧ utf8 s = city ∧ Denotes text (.object [("city".toList, .string s)])

namespace WorkerCaches

theorem unescaped_city : ∀ c ∈ "city".toList, Unescaped c := unescaped_of_all (by decide)

/-- The text of the condition, in characters. -/
theorem cityCondition_utf8 (s : List Char) :
    cityCondition (utf8 s)
      = utf8 ('{' :: '"' :: ("city".toList ++ '"' :: ':' :: '"' :: (s ++ '"' :: ['}']))) := by
  have hopen : utf8 "\x7b\"city\":\"".toList = ascii "\x7b\"city\":\"" := by decide
  have hclose : utf8 ['"', '}'] = ascii "\"\x7d" := by decide
  rw [cityCondition, ← hopen, ← hclose, ← utf8_append, ← utf8_append, List.append_assoc]
  rfl

theorem queriesCity_iff (city : Bytes) : QueriesCity (cityCondition city) city ↔ Verbatim city := by
  constructor
  · rintro ⟨text, s, htext, rfl, hdenotes⟩
    rw [cityCondition_utf8] at htext
    obtain rfl := utf8_injective htext
    obtain ⟨r, hread, _⟩ := denotes_object_iff.mp hdenotes
    refine ⟨s, rfl, unescaped_of_lastMember unescaped_city hread ?_⟩
    intro v
    simp
  · rintro ⟨s, rfl, hs⟩
    refine ⟨_, s, (cityCondition_utf8 s).symm, rfl, denotes_object_iff.mpr ?_⟩
    exact ⟨[], readsMembers_last unescaped_city hs, rfl⟩

/-- **Which city queries are what they should be.** A worker with a mongo client hands it one query for a city
    request, and the condition of that asks for the city received exactly if the city is verbatim. -/
theorem city_query_iff (up : Upstream) (sessCache : Option SessCache) (client : MongoClient) (city : Bytes)
    (start limit : CInt) (params : Bytes) :
    (∃ condition, (findByCity up ⟨sessCache, some client⟩ city start limit params).calls
        = [.store client
            (.findByCondition (ascii "service") (ascii "group_talk") condition start limit params)] ∧
      QueriesCity condition city) ↔ Verbatim city := by
  have hset : (⟨sessCache, some client⟩ : WorkerCaches).mongoClientCache = some client := rfl
  rw [findByCity, query_set hset, ← queriesCity_iff]
  constructor
  · rintro ⟨condition, hcalls, hqueries⟩
    obtain ⟨hcall, _⟩ := List.cons.inj hcalls
    cases hcall
    exact hqueries
  · intro hqueries
    exact ⟨cityCondition city, rfl, hqueries⟩

/-- A city that closes its quotation mark and goes on with a member of its own. -/
theorem city_query_injected :
    ¬ ∀ (up : Upstream) (sessCache : Option SessCache) (client : MongoClient) (city : Bytes)
      (start limit : CInt) (params : Bytes),
      ∃ condition, (findByCity up ⟨sessCache, some client⟩ city start limit params).calls
          = [.store client
              (.findByCondition (ascii "service") (ascii "group_talk") condition start limit params)] ∧
        QueriesCity condition city := by
  intro h
  let city := "a\",\"private\":\"1".toList
  obtain ⟨condition, hcalls, hqueries⟩ := h silentUpstream none ⟨[]⟩ (utf8 city) 0 10 []
  obtain ⟨hcall, _⟩ := List.cons.inj hcalls
  cases hcall
  have hescaped := verbatim_utf8.mp ((queriesCity_iff _).mp hqueries)
  have hquote : Unescaped '"' := hescaped '"' (by decide)
  exact hquote.2.1 rfl

end WorkerCaches

/-! ## The report of a failed call -/

/-- What the report is to say of the exception: its message, without line breaks. -/
def withoutLineBreaks (what : Bytes) : Bytes := what.filter (fun b => b ≠ 13 && b ≠ 10)

/-- The report is a JSON object whose member `error` says that the service failed, and whose member `code` is
    the message of the exception without line breaks. -/
def ReportsFailure (report what : Bytes) : Prop :=
  ∃ text code ms, utf8 text = report ∧ utf8 code = withoutLineBreaks what ∧ Denotes text (.object ms) ∧
    HasMember ms "error".toList (.string "service exception!".toList) ∧
    HasMember ms "code".toList (.string code)

namespace PythonFuncServiceResponser

/-- `replace_all` with nothing to put in deletes. -/
theorem replaceAll_nil (str : Bytes) (src : UInt8) : replaceAll str src [] = str.filter (fun b => b ≠ src) := by
  induction str with
  | nil => rfl
  | cons b str ih =>
      unfold replaceAll at ih ⊢
      rw [List.flatMap_cons, ih]
      by_cases hb : b = src
      · simp [hb]
      · simp [hb]

theorem exceptionJson_eq (what : Bytes) :
    exceptionJson what = ascii "\x7b\"error\":\"service exception!\", \"code\":\"" ++ withoutLineBreaks what
      ++ ascii "\"\x7d" := by
  have hfilter : replaceAll (replaceAll what 13 []) 10 [] = withoutLineBreaks what := by
    rw [replaceAll_nil, replaceAll_nil, List.filter_filter, withoutLineBreaks]
    apply List.filter_congr
    intro b _
    rw [Bool.and_comm]
  simp only [exceptionJson, hfilter]

theorem unescaped_names : (∀ c ∈ "error".toList, Unescaped c) ∧ (∀ c ∈ "code".toList, Unescaped c) ∧
    ∀ c ∈ "service exception!".toList, Unescaped c :=
  ⟨unescaped_of_all (by decide), unescaped_of_all (by decide), unescaped_of_all (by decide)⟩

/-- What stands before the last member of the report. -/
def reportHead (rest : List Char) : List Char :=
  "error".toList ++ '"' :: ':' :: '"' :: ("service exception!".toList ++ '"' :: ',' :: ' ' :: rest)

/-- The text of the report, in characters. -/
theorem exceptionJson_utf8 {what : Bytes} {code : List Char} (h : utf8 code = withoutLineBreaks what) :
    exceptionJson what = utf8 ('{' :: '"' :: reportHead
      ('"' :: ("code".toList ++ '"' :: ':' :: '"' :: (code ++ '"' :: ['}'])))) := by
  have hopen : utf8 "\x7b\"error\":\"service exception!\", \"code\":\"".toList
      = ascii "\x7b\"error\":\"service exception!\", \"code\":\"" := by decide
  have hclose : utf8 ['"', '}'] = ascii "\"\x7d" := by decide
  rw [exceptionJson_eq, ← h, ← hopen, ← hclose, ← utf8_append, ← utf8_append, List.append_assoc]
  rfl

/-- The members of the report are the one with the fixed text, and those read from there on. -/
theorem readsMembers_report {ms : List (List Char × Value)} {rest r : List Char} :
    ReadsMembers ms ('"' :: reportHead ('"' :: rest)) r ↔
      ∃ ms', ms = ("error".toList, .string "service exception!".toList) :: ms' ∧
        ReadsMembers ms' ('"' :: rest) r := by
  obtain ⟨herror, _, htext⟩ := unescaped_names
  have hspace : skipWs (' ' :: '"' :: rest) = '"' :: rest := rfl
  unfold reportHead
  rw [readsMembers_literal_iff herror htext, hspace]

theorem reportsFailure_iff (what : Bytes) :
    ReportsFailure (exceptionJson what) what ↔ Verbatim (withoutLineBreaks what) := by
  obtain ⟨_, hcode, _⟩ := unescaped_names
  constructor
  · rintro ⟨text, code, ms, htext, hwhat, hdenotes, _, hmember⟩
    rw [exceptionJson_utf8 hwhat] at htext
    obtain rfl := utf8_injective htext
    obtain ⟨r, hread, _⟩ := denotes_object_iff.mp hdenotes
    obtain ⟨ms', rfl, hlast⟩ := readsMembers_report.mp hread
    refine ⟨code, hwhat, unescaped_of_lastMember hcode hlast ?_⟩
    intro v
    rw [← hmember v, List.mem_cons, or_iff_right]
    intro hfirst
    have hname : "code".toList = "error".toList := congrArg Prod.fst hfirst
    exact absurd hname (by decide)
  · rintro ⟨code, hwhat, hs⟩
    refine ⟨_, code, [("error".toList, .string "service exception!".toList), ("code".toList, .string code)],
      (exceptionJson_utf8 hwhat).symm, hwhat, denotes_object_iff.mpr ?_, ?_, ?_⟩
    · exact ⟨[], readsMembers_report.mpr ⟨_, rfl, readsMembers_last hcode hs⟩, rfl⟩
    · intro v
      simp
    · intro v
      simp

/-- What a call that throws is answered with. -/
theorem parser_failed {proto : Proto} {up : Upstream} {data what : Bytes} {packet : ServicePacket}
    (hparse : proto.packet.parse data = some packet) (htype : packet.type.getD 0 = 31)
    (hthrow : ∀ c, up.python c = .error what) :
    (parser proto up data).outcome = .ok (.fresh, proto.packet.serialize
      { type := some 32
        pythonCoreResponse :=
          some (callResponse ((packet.pythonCoreRequest.getD {}).cid.getD []) (.error what)) }) := by
  rw [parser, hparse]
  simp only [htype, ne_eq, not_true_eq_false, if_false]
  rw [Traced.outcome_bind_ok (a := .error what)]
  · rfl
  · rw [Traced.outcome_call, hthrow]

/-- **Which Python failures give the JSON they should.** The response to a call that threw carries a report of
    the exception exactly if its message, without line breaks, is verbatim. -/
theorem exception_report_iff (cid what : Bytes) :
    (∃ report, (callResponse cid (.error what)).jsonResponse = some report ∧ ReportsFailure report what) ↔
      Verbatim (withoutLineBreaks what) := by
  rw [← reportsFailure_iff]
  constructor
  · rintro ⟨report, hreport, hfailure⟩
    cases hreport
    exact hfailure
  · intro hfailure
    exact ⟨exceptionJson what, rfl, hfailure⟩

/-- The traceback of a script names its file in quotation marks. -/
theorem traceback_misreported :
    ¬ ∀ cid what : Bytes, ∃ report, (callResponse cid (.error what)).jsonResponse = some report ∧
      ReportsFailure report what := by
  intro h
  let what := "  File \"push.py\", line 1, in run\n".toList
  obtain ⟨report, hreport, hfailure⟩ := h [] (utf8 what)
  cases hreport
  have hverbatim := (reportsFailure_iff _).mp hfailure
  have htext : withoutLineBreaks (utf8 what) = utf8 "  File \"push.py\", line 1, in run".toList := by decide
  rw [htext, verbatim_utf8] at hverbatim
  have hquote : Unescaped '"' := hverbatim '"' (by decide)
  exact hquote.2.1 rfl

end PythonFuncServiceResponser

end BServer
