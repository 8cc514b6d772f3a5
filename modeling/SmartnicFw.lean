import SmartnicFw.Lib.BitFields
import SmartnicFw.Lib.Mpz
import SmartnicFw.Lib.Masks
import SmartnicFw.Lib.Except
import SmartnicFw.Lib.History
import SmartnicFw.Lib.Words
import SmartnicFw.Lib.Tlv
import SmartnicFw.Lib.Transition
import SmartnicFw.Lib.Buffer
import SmartnicFw.Lib.RegFields
import SmartnicFw.Lib.UpdateEach
import SmartnicFw.Lib.SharedUpdates
import SmartnicFw.Lib.Unwind
import SmartnicFw.Lib.MapM
import SmartnicFw.Lib.Segments
import SmartnicFw.Lib.Terms
import SmartnicFw.Lib.RegExp
import SmartnicFw.Lib.Fields
import SmartnicFw.Lib.Walk
import SmartnicFw.Lib.Dict
import SmartnicFw.Snp4.Info
import SmartnicFw.Snp4.InfoHw
import SmartnicFw.Snp4.Counters
import SmartnicFw.Snp4.Table.Impl
import SmartnicFw.Snp4.Table.Export
import SmartnicFw.Snp4.Table.Partial
import SmartnicFw.Snp4.Table.Matches
import SmartnicFw.Snp4.Table.Params
import SmartnicFw.Snp4.Table.Rule
import SmartnicFw.Snp4.Table.Layout
import SmartnicFw.Snp4.Table.Accept
import SmartnicFw.Snp4.Table.Semantics
import SmartnicFw.OpenNic.Stats.Impl
import SmartnicFw.OpenNic.Stats.UpdateLoops
import SmartnicFw.OpenNic.Stats.Accumulate
import SmartnicFw.OpenNic.Stats.MetricRead
import SmartnicFw.OpenNic.Stats.CmacAdapter
import SmartnicFw.OpenNic.Stats.Collector
import SmartnicFw.OpenNic.Stats.Zone
import SmartnicFw.OpenNic.Stats.ZoneRefs
import SmartnicFw.OpenNic.Stats.ZoneRuns
import SmartnicFw.OpenNic.Stats.Values
import SmartnicFw.OpenNic.Stats.ValuesRuns
import SmartnicFw.OpenNic.Cms
import SmartnicFw.OpenNic.CmsWrite
import SmartnicFw.OpenNic.CmsMailbox
import SmartnicFw.OpenNic.CmsCardInfo
import SmartnicFw.OpenNic.Qdma
import SmartnicFw.OpenNic.Switch
import SmartnicFw.SnCfg.Agent.Auth
import SmartnicFw.SnCfg.Agent.HostConfig
import SmartnicFw.SnCfg.Agent.HostRanges
import SmartnicFw.SnCfg.Agent.HostFunctions
import SmartnicFw.SnCfg.Agent.ModuleMem
import SmartnicFw.SnCfg.Agent.ModuleRequest
import SmartnicFw.SnCfg.Agent.ModuleInfo
import SmartnicFw.SnCfg.Agent.ModuleMemSpec
import SmartnicFw.SnCfg.Agent.ModuleMemWrite
import SmartnicFw.SnCfg.Agent.ModuleReports
import SmartnicFw.SnCfg.Agent.ModuleTruth
import SmartnicFw.SnCfg.Agent.ModuleMemReadBack
import SmartnicFw.SnCfg.Agent.SwitchConfig
import SmartnicFw.SnCfg.Agent.SwitchRuns
import SmartnicFw.SnCfg.Agent.SwitchThreads
import SmartnicFw.SnCfg.Agent.ModuleGpio
import SmartnicFw.SnP4.Agent.BitArray
import SmartnicFw.SnP4.Agent.MatchString
import SmartnicFw.SnP4.Agent.IndexSlice
import SmartnicFw.SnP4.Agent.LongStep
import SmartnicFw.SnP4.Agent.MetricFilter
import SmartnicFw.SnP4.Agent.FilterSemantics
import SmartnicFw.SnP4.Agent.ClearStats
import SmartnicFw.SnP4.Agent.FilterThrows
import SmartnicFw.SnP4.Agent.SliceOrbit
import SmartnicFw.SnP4.Agent.SliceSelection
import SmartnicFw.SnP4.Agent.StatsWalk
import SmartnicFw.SnP4.Agent.Counters
import SmartnicFw.SnP4.Agent.CountersLatch
import SmartnicFw.SnP4.Agent.CountersLayout
import SmartnicFw.SnP4.Client.Filter
import SmartnicFw.SnP4.Client.FilterReading
import SmartnicFw.SnP4.Client.FilterMeaning
import SmartnicFw.SnP4.Client.FilterKinds
import SmartnicFw.SnP4.Client.FilterFaithful
import SmartnicFw.SnP4.Client.FilterRequest
import SmartnicFw.SnP4.Client.Batch
import SmartnicFw.SnP4.Client.P4bm
import SmartnicFw.SnP4.Client.P4bmLines
import SmartnicFw.SnP4.Client.P4bmClears
import SmartnicFw.SnP4.Client.P4bmArgs
import SmartnicFw.SnP4.Client.P4bmRender
import SmartnicFw.SnP4.Client.P4bmRules
import SmartnicFw.SnP4.Client.StatsFormat
import SmartnicFw.SystemSetup.VpdDecoder
import SmartnicFw.Lib.Heap
import SmartnicFw.Lib.MpzText
import SmartnicFw.Snp4.Table.Buffers
import SmartnicFw.SnP4.Agent.TableRule
import SmartnicFw.SnP4.Agent.TableRuleBuffers
import SmartnicFw.Lib.RegExpParses
import SmartnicFw.SnP4.Client.TableRule
import SmartnicFw.SnP4.Client.TableRuleNumbers
import SmartnicFw.SnP4.Client.TableRuleAgrees
import SmartnicFw.Lib.CountedLoop
import SmartnicFw.OpenNic.Stats.Export
import SmartnicFw.OpenNic.Stats.ExportLabels
import SmartnicFw.OpenNic.Stats.ExportRuns
import SmartnicFw.Lib.Tally
import SmartnicFw.SnCfg.Client.StatsView
import SmartnicFw.SnCfg.Client.StatsViewTables
import SmartnicFw.SnCfg.Client.StatsViewDisplay
import SmartnicFw.SnCfg.Client.StatsViewShown
import SmartnicFw.SnP4.Agent.BitArrayImpl
import SmartnicFw.SnP4.Agent.BitArrayRefines
import SmartnicFw.SnP4.Agent.BitArrayRuns
import SmartnicFw.Lib.Utf8
import SmartnicFw.Lib.Assignments
import SmartnicFw.SystemSetup.VpdOutput
import SmartnicFw.Snp4.Api
import SmartnicFw.SnP4.Agent.TableRuleOutcome
import SmartnicFw.SnP4.Agent.TableRuleKeys
import SmartnicFw.SnP4.Agent.TableRuleBatch
import SmartnicFw.SnP4.Agent.TableRuleOwnership
import SmartnicFw.Lib.Cursor
import SmartnicFw.Snp4.ForEachEntry
import SmartnicFw.Snp4.ForEachEntryRuns
import SmartnicFw.Lib.Atoms
import SmartnicFw.Lib.Glob
import SmartnicFw.Lib.SplitOn
import SmartnicFw.SnCfg.Client.ViewFilter
import SmartnicFw.SnCfg.Client.StatsViewReq
import SmartnicFw.SnCfg.Client.ViewFilterShown
import SmartnicFw.Lib.Accepted
import SmartnicFw.SnCfg.Agent.ServerConfig
import SmartnicFw.SnCfg.Agent.ServerRuns
import SmartnicFw.OpenNic.Stats.CollectorSerial
import SmartnicFw.SnCfg.Agent.ServerCollectors
import SmartnicFw.Snp4.InfoPipeline
import SmartnicFw.SnP4.Agent.PipelineSetUp
import SmartnicFw.SnP4.Agent.PipelineInfo
import SmartnicFw.Lib.EntryLog
import SmartnicFw.Lib.ForSelected
import SmartnicFw.Snp4.Reset
import SmartnicFw.SnP4.Agent.TableClear
import SmartnicFw.SnP4.Agent.TableRuns
import SmartnicFw.OpenNic.Cmac
import SmartnicFw.SnCfg.Agent.PortConfig
import SmartnicFw.SnCfg.Agent.HostReport
import SmartnicFw.SnCfg.Agent.Defaults
import SmartnicFw.SnCfg.Agent.ConfigRuns
import SmartnicFw.SnCfg.Agent.ConfigReports
import SmartnicFw.SnP4.Client.P4bmFits
import SmartnicFw.Lib.Lifetimes
import SmartnicFw.Snp4.Init
import SmartnicFw.Snp4.InitRuns
