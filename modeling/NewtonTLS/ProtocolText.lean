/-
# The text of the protocols

NewtonOS calls an object of another package through a protocol: the caller is linked with a short
function for each member, which finds the object and its branch table and jumps into the table.
The project writes three such protocols in assembly, the callers' side (`PMbedTLSInterfaceGlue.s`,
`PConnectionEndGlue.s`, `PCECallBackGlue.s`) and the tables of its own classes (`PMbedTLS.impl.s`,
`PMbedTLSConnectionEnd.impl.s`, `PMbedTLSCECallBack.impl.s`).  The macros are functions of their
arguments here, and the lists of members follow the files line by line.
-/
import NewtonTLS.Images

open Arm

namespace NewtonTLS

namespace Protocols

/-! ## Symbols -/

/-- The symbols of a protocol and one class of it, and the local labels: a member as it is called,
as the class has it, and as `PMbedTLSConnectionEnd` has it under the name with `CB`. -/
inductive Symbol (Member : Type) : Type where
  | glue (m : Member)
  | own (m : Member)
  | connectionEnd (m : Member)
  | asciz
  | returned
  | btbl
  | allocInstanceByName
  | freeInstance
  deriving DecidableEq, Repr

/-! ## The macros -/

section

variable {Member : Type}

/-- A label. -/
abbrev label (l : Symbol Member) : Line (Symbol Member) := .label l

/-- An operation without a condition. -/
abbrev op (o : Op) : Line (Symbol Member) := .instr (.op .al o)

/-- `b`. -/
abbrev b (l : Symbol Member) : Line (Symbol Member) := .instr (.b .al l)

/-- `bl`. -/
abbrev bl (l : Symbol Member) : Line (Symbol Member) := .instr (.bl l)

/-- Words of data. -/
abbrev words (ws : List Word) : List (Line (Symbol Member)) := ws.map fun w => .instr (.word w)

/-- `_Dispatch`. -/
def dispatch (slotno : ℕ) : List (Line (Symbol Member)) := [
  op (.ldr .r0 .r0 4),
  op (.ldr .ip .r0 8),
  .instr (.addPc .ip (BitVec.ofNat 32 (4 * slotno)))]

/-- `Dispatch`. -/
def dispatchFunction (m : Member) (slotno : ℕ) : List (Line (Symbol Member)) :=
  label (.glue m) :: dispatch slotno

/-- `New`; `className` are the words of the string, with its end and the padding. -/
def newFunction (m : Member) (className : List Word) : List (Line (Symbol Member)) :=
  [label .asciz,
    .instr (.movFromPc .r0),
    .instr (.movPc .al .lr)] ++
  words className ++
  [label (.glue m),
    op (.push [.r0, .r1, .r2, .r3, .lr]),
    op (.mov false .r1 (.reg .r0)),
    bl .asciz,
    bl .allocInstanceByName,
    op (.test .tst .r0 (.reg .r0)),
    op (.binary .add false .sp .sp (.imm 4)),
    op (.pop [.r1, .r2, .r3, .lr]),
    .instr (.movPc .eq .lr)] ++
  dispatch 2

/-- `Delete`. -/
def deleteFunction (m : Member) : List (Line (Symbol Member)) := [
  label (.glue m),
  op (.ldr .r0 .r0 4),
  op (.push [.r0, .lr]),
  .instr (.adr .lr .returned),
  op (.ldr .ip .r0 8),
  .instr (.addPc .ip 12),
  label .returned,
  op (.pop [.r0, .lr]),
  b .freeInstance]

/-- The bytes of a string in memory, highest byte first, filled up to whole words. -/
def pack : List ℕ → List Word
  | [] => []
  | [x] => [BitVec.ofNat 32 (x * 2 ^ 24)]
  | [x, y] => [BitVec.ofNat 32 (x * 2 ^ 24 + y * 2 ^ 16)]
  | [x, y, z] => [BitVec.ofNat 32 (x * 2 ^ 24 + y * 2 ^ 16 + z * 2 ^ 8)]
  | x :: y :: z :: w :: rest =>
    BitVec.ofNat 32 (x * 2 ^ 24 + y * 2 ^ 16 + z * 2 ^ 8 + w) :: pack rest

/-- `.string`, and `.balign 4`. -/
def string (s : String) : List Word := pack (s.toList.map Char.toNat ++ [0])

end

/-! ## `PMbedTLSInterface` and `PMbedTLS` -/

/-- The members of `PMbedTLSInterface`. -/
inductive InterfaceMember : Type where
  | classInfo | new | delete | getVersion | sslListCiphersuites | entropyNew | ctrDrbgNew
  | ctrDrbgSeed | pkNew | sslNew | sslCheckPending | sslCloseNotify | sslGetALPNProtocol
  | sslGetBytesAvail | sslGetCiphersuite | sslGetMaxFragLen | sslGetMaxOutRecordPayload
  | sslGetPeerCert | sslGetRecordExpansion | sslGetSession | sslGetVerifyResult | sslGetVersion
  | sslHandshake | sslHandshakeStep | sslRead | sslRenegotiate | sslSendAlertMessage
  | sslSessionReset | sslSetBio | sslSetClientTransportID | sslSetDatagramPacking | sslSetHostname
  | sslSetHsAuthMode | sslSetHsCAChain | sslSetHsOwnCert | sslSetHsPSK | sslSetMTU | sslSetSession
  | sslSetTimerCb | sslSetup | sslWrite | sslCacheNew | sslCacheSetMaxEntries | sslCacheSetTimeout
  | sslConfigNew | sslConfALPNProtocol | sslConfARC4Support | sslConfAuthMode | sslConfCAChain
  | sslConfCbcRecordSplitting | sslConfCertProfile | sslConfCertReqCAList | sslConfCiphersuites
  | sslConfCiphersuitesForVersion | sslConfCurves | sslConfDbg | sslConfDHParamBin
  | sslConfDHParamCtx | sslConfDHMMinBitlen | sslConfDTLSAntiReplay | sslConfDTLSBadMACLimit
  | sslConfDTLSCookies | sslConfEncryptThenMac | sslConfEndpoint | sslConfExportKeysCb
  | sslConfExtendedMasterSecret | sslConfFallback | sslConfHandshakeTimeout
  | sslConfLegacyRenegotiation | sslConfMaxFragLen | sslConfMaxVersion | sslConfMinVersion
  | sslConfOwnCert | sslConfPSK | sslConfPSKCb | sslConfRenegotiation
  | sslConfRenegotiationEnforced | sslConfRenegotiationPeriod | sslConfRng | sslConfSessionCache
  | sslConfSessionTickets | sslConfSessionTicketsCb | sslConfSigHashes | sslConfSNI
  | sslConfTransport | sslConfTruncatedHMAC | sslConfVerify | sslConfigDefaults | sslSessionNew
  | x509CrlNew | x509CrlParse | x509CrtNew | x509CrtParse | x509CrtCount | x509CrtGetDER
  | x509CrtGetVersion | x509CrtGetSerialNumber | x509CrtGetIssuerName | x509CrtGetSubjectName
  | x509CrtGetIssueDate | x509CrtGetExpirationDate | x509CrtGetSignatureAlgorithm
  | installConnectionEnd | removeConnectionEnd
  deriving DecidableEq, Repr

/-- The `Dispatch` lines of `PMbedTLSInterfaceGlue.s`. -/
def interfaceGlue : List (InterfaceMember × ℕ) := [
  (.getVersion, 4), (.sslListCiphersuites, 5), (.entropyNew, 6), (.ctrDrbgNew, 7),
  (.ctrDrbgSeed, 8), (.pkNew, 9), (.sslNew, 10), (.sslCheckPending, 11), (.sslCloseNotify, 12),
  (.sslGetALPNProtocol, 13), (.sslGetBytesAvail, 14), (.sslGetCiphersuite, 15),
  (.sslGetMaxFragLen, 16), (.sslGetMaxOutRecordPayload, 17), (.sslGetPeerCert, 18),
  (.sslGetRecordExpansion, 19), (.sslGetSession, 20), (.sslGetVerifyResult, 21),
  (.sslGetVersion, 22), (.sslHandshake, 23), (.sslHandshakeStep, 24), (.sslRead, 25),
  (.sslRenegotiate, 26), (.sslSendAlertMessage, 27), (.sslSessionReset, 28), (.sslSetBio, 29),
  (.sslSetClientTransportID, 30), (.sslSetDatagramPacking, 31), (.sslSetHostname, 32),
  (.sslSetHsAuthMode, 33), (.sslSetHsCAChain, 34), (.sslSetHsOwnCert, 35), (.sslSetHsPSK, 36),
  (.sslSetMTU, 37), (.sslSetSession, 38), (.sslSetTimerCb, 39), (.sslSetup, 40), (.sslWrite, 41),
  (.sslCacheNew, 42), (.sslCacheSetMaxEntries, 43), (.sslCacheSetTimeout, 44), (.sslConfigNew, 45),
  (.sslConfALPNProtocol, 46), (.sslConfARC4Support, 47), (.sslConfAuthMode, 48),
  (.sslConfCAChain, 49), (.sslConfCbcRecordSplitting, 50), (.sslConfCertProfile, 51),
  (.sslConfCertReqCAList, 52), (.sslConfCiphersuites, 53), (.sslConfCiphersuitesForVersion, 54),
  (.sslConfCurves, 55), (.sslConfDbg, 56), (.sslConfDHParamBin, 57), (.sslConfDHParamCtx, 58),
  (.sslConfDHMMinBitlen, 59), (.sslConfDTLSAntiReplay, 60), (.sslConfDTLSBadMACLimit, 61),
  (.sslConfDTLSCookies, 62), (.sslConfEncryptThenMac, 63), (.sslConfEndpoint, 64),
  (.sslConfExportKeysCb, 65), (.sslConfExtendedMasterSecret, 66), (.sslConfFallback, 67),
  (.sslConfHandshakeTimeout, 68), (.sslConfLegacyRenegotiation, 69), (.sslConfMaxFragLen, 70),
  (.sslConfMaxVersion, 71), (.sslConfMinVersion, 72), (.sslConfOwnCert, 73), (.sslConfPSK, 74),
  (.sslConfPSKCb, 75), (.sslConfRenegotiation, 76), (.sslConfRenegotiationEnforced, 77),
  (.sslConfRenegotiationPeriod, 78), (.sslConfRng, 79), (.sslConfSessionCache, 80),
  (.sslConfSessionTickets, 81), (.sslConfSessionTicketsCb, 82), (.sslConfSigHashes, 83),
  (.sslConfSNI, 84), (.sslConfTransport, 85), (.sslConfTruncatedHMAC, 86), (.sslConfVerify, 87),
  (.sslConfigDefaults, 88), (.sslSessionNew, 89), (.x509CrlNew, 90), (.x509CrlParse, 91),
  (.x509CrtNew, 92), (.x509CrtParse, 93), (.x509CrtCount, 94), (.x509CrtGetDER, 95),
  (.x509CrtGetVersion, 96), (.x509CrtGetSerialNumber, 97), (.x509CrtGetIssuerName, 98),
  (.x509CrtGetSubjectName, 99), (.x509CrtGetIssueDate, 100), (.x509CrtGetExpirationDate, 101),
  (.x509CrtGetSignatureAlgorithm, 102), (.installConnectionEnd, 103), (.removeConnectionEnd, 104)]

/-- The branch table of `PMbedTLS.impl.s`. -/
def pmbedTLSTable : List (Line (Symbol InterfaceMember)) :=
  [label .btbl, .instr (.word 0), b (.own .classInfo), b (.own .new), b (.own .delete)] ++
  ([
    .getVersion, .sslListCiphersuites, .entropyNew, .ctrDrbgNew, .ctrDrbgSeed, .pkNew, .sslNew,
    .sslCheckPending, .sslCloseNotify, .sslGetALPNProtocol, .sslGetBytesAvail, .sslGetCiphersuite,
    .sslGetMaxFragLen, .sslGetMaxOutRecordPayload, .sslGetPeerCert, .sslGetRecordExpansion,
    .sslGetSession, .sslGetVerifyResult, .sslGetVersion, .sslHandshake, .sslHandshakeStep,
    .sslRead, .sslRenegotiate, .sslSendAlertMessage, .sslSessionReset, .sslSetBio,
    .sslSetClientTransportID, .sslSetDatagramPacking, .sslSetHostname, .sslSetHsAuthMode,
    .sslSetHsCAChain, .sslSetHsOwnCert, .sslSetHsPSK, .sslSetMTU, .sslSetSession, .sslSetTimerCb,
    .sslSetup, .sslWrite, .sslCacheNew, .sslCacheSetMaxEntries, .sslCacheSetTimeout, .sslConfigNew,
    .sslConfALPNProtocol, .sslConfARC4Support, .sslConfAuthMode, .sslConfCAChain,
    .sslConfCbcRecordSplitting, .sslConfCertProfile, .sslConfCertReqCAList, .sslConfCiphersuites,
    .sslConfCiphersuitesForVersion, .sslConfCurves, .sslConfDbg, .sslConfDHParamBin,
    .sslConfDHParamCtx, .sslConfDHMMinBitlen, .sslConfDTLSAntiReplay, .sslConfDTLSBadMACLimit,
    .sslConfDTLSCookies, .sslConfEncryptThenMac, .sslConfEndpoint, .sslConfExportKeysCb,
    .sslConfExtendedMasterSecret, .sslConfFallback, .sslConfHandshakeTimeout,
    .sslConfLegacyRenegotiation, .sslConfMaxFragLen, .sslConfMaxVersion, .sslConfMinVersion,
    .sslConfOwnCert, .sslConfPSK, .sslConfPSKCb, .sslConfRenegotiation,
    .sslConfRenegotiationEnforced, .sslConfRenegotiationPeriod, .sslConfRng, .sslConfSessionCache,
    .sslConfSessionTickets, .sslConfSessionTicketsCb, .sslConfSigHashes, .sslConfSNI,
    .sslConfTransport, .sslConfTruncatedHMAC, .sslConfVerify, .sslConfigDefaults, .sslSessionNew,
    .x509CrlNew, .x509CrlParse, .x509CrtNew, .x509CrtParse, .x509CrtCount, .x509CrtGetDER,
    .x509CrtGetVersion, .x509CrtGetSerialNumber, .x509CrtGetIssuerName, .x509CrtGetSubjectName,
    .x509CrtGetIssueDate, .x509CrtGetExpirationDate, .x509CrtGetSignatureAlgorithm,
    .installConnectionEnd, .removeConnectionEnd] : List InterfaceMember).map
      fun m => b (.own m)

/-! ## `PConnectionEnd` and `PMbedTLSConnectionEnd` -/

/-- The members of `PConnectionEnd`. -/
inductive EndMember : Type where
  | classInfo | new | delete | init | handleInternalRequest | handleInternalEvent | openStart
  | closeStart | bindStart | unbindStart | connectStart | listenStart | acceptStart | releaseStart
  | terminateStart | putBytesStart | putFramedBytesStart | killPutStart | getBytesStart
  | getFramedBytesStart | getBytesImmediateStart | killGetStart | handleTimerTick | handleRequest
  | handleReply | killControlStart | killGetCommEventStart | getCommEvent | processOptionStart
  | processPutBytesOptionStart | processGetBytesOptionStart | resArbReleaseStart
  | resArbClaimNotification | forwardOptions
  deriving DecidableEq, Repr

/-- The `Dispatch` lines of `PConnectionEndGlue.s`. -/
def connectionEndGlue : List (EndMember × ℕ) := [
  (.init, 4), (.handleInternalRequest, 5), (.handleInternalEvent, 6), (.openStart, 7),
  (.closeStart, 8), (.bindStart, 9), (.unbindStart, 10), (.connectStart, 11), (.listenStart, 12),
  (.acceptStart, 13), (.releaseStart, 14), (.terminateStart, 15), (.putBytesStart, 16),
  (.putFramedBytesStart, 17), (.killPutStart, 18), (.getBytesStart, 19),
  (.getFramedBytesStart, 20), (.getBytesImmediateStart, 21), (.killGetStart, 22),
  (.handleTimerTick, 23), (.handleRequest, 24), (.handleReply, 25), (.killControlStart, 26),
  (.killGetCommEventStart, 27), (.getCommEvent, 28), (.processOptionStart, 29),
  (.processPutBytesOptionStart, 30), (.processGetBytesOptionStart, 31), (.resArbReleaseStart, 32),
  (.resArbClaimNotification, 33), (.forwardOptions, 34)]

/-- The branch table of `PMbedTLSConnectionEnd.impl.s`. -/
def pmbedTLSConnectionEndTable : List (Line (Symbol EndMember)) :=
  [label .btbl, .instr (.word 0), b (.own .classInfo), b (.own .new), b (.own .delete)] ++
  ([
    .init, .handleInternalRequest, .handleInternalEvent, .openStart, .closeStart, .bindStart,
    .unbindStart, .connectStart, .listenStart, .acceptStart, .releaseStart, .terminateStart,
    .putBytesStart, .putFramedBytesStart, .killPutStart, .getBytesStart, .getFramedBytesStart,
    .getBytesImmediateStart, .killGetStart, .handleTimerTick, .handleRequest, .handleReply,
    .killControlStart, .killGetCommEventStart, .getCommEvent, .processOptionStart,
    .processPutBytesOptionStart, .processGetBytesOptionStart, .resArbReleaseStart,
    .resArbClaimNotification, .forwardOptions] : List EndMember).map
      fun m => b (.own m)

/-! ## `PCECallBack` and `PMbedTLSCECallBack` -/

/-- The members of `PCECallBack`. -/
inductive CallBackMember : Type where
  | classInfo | new | delete | init | openComplete | closeComplete | bindComplete | unbindComplete
  | connectComplete | listenComplete | acceptComplete | terminateComplete | putComplete
  | killPutComplete | getComplete | killGetComplete | handleRequest | handleReply
  | killControlComplete | killGetCommEventComplete | getCommEvent | postCommEvent
  | processOptionComplete | processPutBytesOptionComplete | processGetBytesOptionComplete
  | resArbReleaseComplete | flushChannel | startAbort | getAbortErr | getTerminationEvent
  | setTerminationEvent | initAsyncRPCMsg | getToolConnectState | setToolConnectState
  | getConnectInfo | setConnectInfo | getCMOTransportInfo | setCMOTransportInfo
  | getReceiveMessageBufSize | getConnectionEndPort | getControlOptionsInfo
  | getGetBytesOptionsInfo | getPutBytesOptionsInfo | getCurPutData | getCurPutFrameData
  | getCurPutEndOfFrame | getCurGetData | getCurGetFrameData | getCurGetNonBlocking
  | getCurGetThreshold | getPassiveClaim | setPassiveClaim | getPassiveState | setPassiveState
  | getWaitingForResNotify | setWaitingForResNotify | getCurRequestOpCode
  deriving DecidableEq, Repr

/-- The `Dispatch` lines of `PCECallBackGlue.s`. -/
def callBackGlue : List (CallBackMember × ℕ) := [
  (.init, 4), (.openComplete, 5), (.closeComplete, 6), (.bindComplete, 7), (.unbindComplete, 8),
  (.connectComplete, 9), (.listenComplete, 10), (.acceptComplete, 11), (.terminateComplete, 12),
  (.putComplete, 13), (.killPutComplete, 14), (.getComplete, 15), (.killGetComplete, 16),
  (.handleRequest, 17), (.handleReply, 18), (.killControlComplete, 19),
  (.killGetCommEventComplete, 20), (.getCommEvent, 21), (.postCommEvent, 22),
  (.processOptionComplete, 23), (.processPutBytesOptionComplete, 24),
  (.processGetBytesOptionComplete, 25), (.resArbReleaseComplete, 26), (.flushChannel, 27),
  (.startAbort, 28), (.getAbortErr, 29), (.getTerminationEvent, 30), (.setTerminationEvent, 31),
  (.initAsyncRPCMsg, 32), (.getToolConnectState, 33), (.setToolConnectState, 34),
  (.getConnectInfo, 35), (.setConnectInfo, 36), (.getCMOTransportInfo, 37),
  (.setCMOTransportInfo, 38), (.getReceiveMessageBufSize, 39), (.getConnectionEndPort, 40),
  (.getControlOptionsInfo, 41), (.getGetBytesOptionsInfo, 42), (.getPutBytesOptionsInfo, 43),
  (.getCurPutData, 44), (.getCurPutFrameData, 45), (.getCurPutEndOfFrame, 46),
  (.getCurGetData, 47), (.getCurGetFrameData, 48), (.getCurGetNonBlocking, 49),
  (.getCurGetThreshold, 50), (.getPassiveClaim, 51), (.setPassiveClaim, 52),
  (.getPassiveState, 53), (.setPassiveState, 54), (.getWaitingForResNotify, 55),
  (.setWaitingForResNotify, 56), (.getCurRequestOpCode, 57)]

/-- The members that `PMbedTLSCECallBack.impl.s` hands on, in the order of its table and of the
functions behind it. -/
def callBacks : List CallBackMember := [
  .init, .openComplete, .closeComplete, .bindComplete, .unbindComplete, .connectComplete,
  .listenComplete, .acceptComplete, .terminateComplete, .putComplete, .killPutComplete,
  .getComplete, .killGetComplete, .handleRequest, .handleReply, .killControlComplete,
  .killGetCommEventComplete, .getCommEvent, .postCommEvent, .processOptionComplete,
  .processPutBytesOptionComplete, .processGetBytesOptionComplete, .resArbReleaseComplete,
  .flushChannel, .startAbort, .getAbortErr, .getTerminationEvent, .setTerminationEvent,
  .initAsyncRPCMsg, .getToolConnectState, .setToolConnectState, .getConnectInfo, .setConnectInfo,
  .getCMOTransportInfo, .setCMOTransportInfo, .getReceiveMessageBufSize, .getConnectionEndPort,
  .getControlOptionsInfo, .getGetBytesOptionsInfo, .getPutBytesOptionsInfo, .getCurPutData,
  .getCurPutFrameData, .getCurPutEndOfFrame, .getCurGetData, .getCurGetFrameData,
  .getCurGetNonBlocking, .getCurGetThreshold, .getPassiveClaim, .setPassiveClaim, .getPassiveState,
  .setPassiveState, .getWaitingForResNotify, .setWaitingForResNotify, .getCurRequestOpCode]

/-- A function of `PMbedTLSCECallBack.impl.s`: the field `mThis` becomes `this`. -/
def handOn (m : CallBackMember) : List (Line (Symbol CallBackMember)) := [
  label (.own m),
  op (.ldr .r0 .r0 16),
  b (.connectionEnd m)]

/-- The branch table of `PMbedTLSCECallBack.impl.s` and the functions behind it. -/
def pmbedTLSCECallBackText : List (Line (Symbol CallBackMember)) :=
  [label .btbl, .instr (.word 0), b (.own .classInfo), .instr (.movPc .al .lr), b (.own .delete)] ++
  callBacks.map (fun m => b (.own m)) ++ callBacks.flatMap handOn

end Protocols

end NewtonTLS
