import BServer.Base.Delimited
import BServer.Task.ServicePackage

/-!
# `Task.UpstreamUrl` — what the URL of a forum request says

`do_reply_request` and `do_post_topic_request` paste five strings of the client into one URL, between literal
delimiters, and escape none of them. A URL of theirs is a text of `Base.Delimited`, so it is the URL of no other
five strings exactly if none of them contains a delimiter next to it (`UrlFields.Unforgeable`).
-/

namespace BServer

open Bytes

/-- What a client chooses in the URL of a forum request. -/
structure UrlFields where
  id       : Bytes
  sign     : Bytes
  v        : Bytes
  platform : Bytes
  deviceId : Bytes
deriving DecidableEq

namespace UrlFields

/-- The URL, under a domain, for one of two resources. -/
def url (domain resource : Bytes) (f : UrlFields) : Bytes :=
  resourceUrl domain f.id resource f.sign f.v f.platform f.deviceId

/-- What stands before each string but the first. -/
def delimited (resource : Bytes) (f : UrlFields) : List (Bytes × Bytes) :=
  [(resource ++ ascii "sign=", f.sign), (ascii "&v=", f.v), (ascii "&platform=", f.platform),
    (ascii "&device_id=", f.deviceId)]

/-- No string contains the delimiter before it, or the one behind it. -/
def Unforgeable (resource : Bytes) (f : UrlFields) : Prop := Delimited.Clean f.id (f.delimited resource)

theorem url_eq (domain resource : Bytes) (f : UrlFields) :
    f.url domain resource = domain ++ (ascii "/" ++ Delimited.join f.id (f.delimited resource)) := by
  simp only [url, resourceUrl, delimited, Delimited.join, List.append_assoc]

theorem url_inj {domain resource : Bytes} {f g : UrlFields} :
    g.url domain resource = f.url domain resource ↔
      Delimited.join g.id (g.delimited resource) = Delimited.join f.id (f.delimited resource) := by
  rw [url_eq, url_eq, List.append_cancel_left_eq, List.append_cancel_left_eq]

/-- Every list of strings between these delimiters is that of some fields. -/
theorem exists_delimited {resource : Bytes} {f : UrlFields} {rest : List (Bytes × Bytes)} (id : Bytes)
    (h : rest.map Prod.fst = (f.delimited resource).map Prod.fst) :
    ∃ g : UrlFields, g.id = id ∧ g.delimited resource = rest := by
  match rest, h with
  | [(_, sign), (_, v), (_, platform), (_, deviceId)], h =>
      simp only [delimited, List.map_cons, List.map_nil, List.cons.injEq] at h
      obtain ⟨rfl, rfl, rfl, rfl, _⟩ := h
      exact ⟨⟨id, sign, v, platform, deviceId⟩, rfl, rfl⟩

/-- Fields are told apart by what the URL is joined from. -/
theorem eq_of_delimited {resource : Bytes} {f g : UrlFields} (hid : g.id = f.id)
    (h : g.delimited resource = f.delimited resource) : g = f := by
  obtain ⟨id, sign, v, platform, deviceId⟩ := f
  simp only [delimited, List.cons.injEq, Prod.mk.injEq, true_and, and_true] at h
  obtain ⟨rfl, rfl, rfl, rfl⟩ := h
  obtain rfl : g.id = id := hid
  rfl

/-- **What one URL says.** It belongs to no other fields exactly if its own are unforgeable. -/
theorem determined_iff {resource : Bytes} (hres : Delimited.Unbordered (resource ++ ascii "sign="))
    (domain : Bytes) (f : UrlFields) :
    (∀ g : UrlFields, g.url domain resource = f.url domain resource → g = f) ↔ f.Unforgeable resource := by
  have hub : ∀ e ∈ f.delimited resource, Delimited.Unbordered e.1 := by
    intro e he
    simp only [delimited, List.mem_cons, List.not_mem_nil, or_false] at he
    rcases he with rfl | rfl | rfl | rfl
    · exact hres
    · exact ⟨38, _, rfl, by decide⟩
    · exact ⟨38, _, rfl, by decide⟩
    · exact ⟨38, _, rfl, by decide⟩
  rw [Unforgeable, ← Delimited.determined_iff hub]
  constructor
  · intro h id rest hdelims hjoin
    obtain ⟨g, rfl, rfl⟩ := exists_delimited id hdelims
    obtain rfl := h g (url_inj.mpr hjoin)
    exact ⟨rfl, rfl⟩
  · intro h g hurl
    obtain ⟨hid, hdelimited⟩ := h g.id (g.delimited resource) rfl (url_inj.mp hurl)
    exact eq_of_delimited hid hdelimited

end UrlFields

namespace ServicePackageResponser

/-- The strings of a reply request that go into its URL. -/
def replyFields (rr : ReplyRequest) : UrlFields :=
  ⟨rr.topicId.getD [], rr.sign.getD [], rr.v.getD [], rr.platform.getD [], rr.deviceId.getD []⟩

/-- Those of a request to post a topic. -/
def postTopicFields (ptr : PostTopicRequest) : UrlFields :=
  ⟨ptr.forumId.getD [], ptr.sign.getD [], ptr.v.getD [], ptr.platform.getD [], ptr.deviceId.getD []⟩

/-- **Which upstream URLs cannot be forged.** For a fixed domain, the URL of a reply request and the one of a
    request to post a topic determine all five strings exactly if no string contains a delimiter next to it. -/
theorem upstream_url_determined_iff (up : Upstream) :
    (∀ rr : ReplyRequest,
      (∀ rr', replyUrl up rr' = replyUrl up rr → replyFields rr' = replyFields rr) ↔
        (replyFields rr).Unforgeable (ascii "/reviews?")) ∧
    (∀ ptr : PostTopicRequest,
      (∀ ptr', postTopicUrl up ptr' = postTopicUrl up ptr → postTopicFields ptr' = postTopicFields ptr) ↔
        (postTopicFields ptr).Unforgeable (ascii "/topics?")) := by
  constructor
  · intro rr
    rw [← UrlFields.determined_iff ⟨47, _, rfl, by decide⟩ up.replyDomain]
    constructor
    · intro h g hurl
      exact h { topicId := some g.id, sign := some g.sign, v := some g.v, platform := some g.platform
                deviceId := some g.deviceId } hurl
    · intro h rr' hurl
      exact h (replyFields rr') hurl
  · intro ptr
    rw [← UrlFields.determined_iff ⟨47, _, rfl, by decide⟩ up.postTopicDomain]
    constructor
    · intro h g hurl
      exact h { forumId := some g.id, sign := some g.sign, v := some g.v, platform := some g.platform
                deviceId := some g.deviceId } hurl
    · intro h ptr' hurl
      exact h (postTopicFields ptr') hurl

/-- A signature that ends in a version of its own. -/
theorem reply_url_forged :
    ¬ ∀ (up : Upstream) (rr rr' : ReplyRequest), replyUrl up rr' = replyUrl up rr →
      replyFields rr' = replyFields rr := by
  intro h
  let signed : ReplyRequest := { sign := some (ascii "a&v=1"), v := some (ascii "2") }
  let honest : ReplyRequest := { sign := some (ascii "a"), v := some (ascii "1&v=2") }
  have hfields := h silentUpstream honest signed (by decide)
  exact absurd hfields (by decide)

end ServicePackageResponser

end BServer
