import AnvilZksync.Node.Types
import AnvilZksync.Node.ForkStorage
import AnvilZksync.Node.Inner
import AnvilZksync.Node.Debug
import AnvilZksync.Node.Zks
import AnvilZksync.Node.Details
import AnvilZksync.Node.Readers
import AnvilZksync.Node.Writers
import AnvilZksync.Node.Interleaving
import AnvilZksync.Node.Consistency
import AnvilZksync.ApiServer.Anvil
