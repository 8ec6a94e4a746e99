import AxiomLedger.Journal.Frame
import AxiomLedger.Journal.Records
import AxiomLedger.Journal.Consume
import AxiomLedger.Journal.Recovery
import AxiomLedger.Solo.Node
import AxiomLedger.Solo.BatchTimers
import AxiomLedger.Solo.Commit
import AxiomLedger.Ledger.Store
import AxiomLedger.Ledger.Archive
import AxiomLedger.Ledger.Trie
import AxiomLedger.Ledger.View
import AxiomLedger.Ledger.Meta
import AxiomLedger.Ledger.StorageMgr
import AxiomLedger.Rbft.Node
import AxiomLedger.Rbft.Report
